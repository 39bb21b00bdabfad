import ChargingSite.Proofs.Simulation.History
import Mathlib.Data.List.Nodup

/-!
# The life of a handle

Whoever joins the line gets the next handle, waits, is plugged in once, and leaves the plug for good
when its vehicle has finished.  At every moment of a history there is a number `k` such that the
line holds the handles from `k` on, and the handles below `k` are plugged in, each of them once, or
have departed (`LinedUp`).  Admission raises `k` (`LinedUp.fill`) and re-allocation leaves it as it
is (`LinedUp.settle`), so a step preserves the order (`LinedUp.stepped`).

Handles go to the chargers in list order, and only to free plugs (`Admits`); nobody departs at any
other moment than a re-allocation at which its vehicle has finished (`Departs`), and who has
departed does not come back (`HasLeft`).  All this together is `handles_life_cycle`.
-/

namespace ChargingSite

variable {n : ℕ}

/-! ### The line-up -/

/-- The handles below `k` have been let in, those from `k` on are in the line. -/
structure LinedUp (registry : List (Fin n)) (queue : List (Ticket n)) (cs : List (Charger n))
    (k : ℕ) : Prop where
  /-- The line holds the handles from `k` to the last one given, in order. -/
  queue_eq : queue.map Ticket.handle = List.range' k (registry.length - k)
  le_next : k ≤ registry.length
  /-- Who waits under a handle is the vehicle that it was given to. -/
  queued : ∀ t ∈ queue, registry[t.handle]? = some t.vehicle
  /-- Nobody is plugged in twice, neither at one charger nor at two. -/
  nodup : ((entries cs).map Prod.fst).Nodup
  /-- Whoever is plugged in has a handle below `k`, and is the vehicle that it was given to. -/
  admitted : ∀ e ∈ entries cs, ∃ handle < k, e.1 = (handle : ℤ) ∧ registry[handle]? = some e.2
  increasing : ∀ c ∈ cs, (c.occupants.map Occupant.id).Pairwise (· < ·)
  length_le : ∀ c ∈ cs, c.occupants.length ≤ c.strategy.plugs.toNat

namespace LinedUp

variable {registry : List (Fin n)} {queue rest : List (Ticket n)} {cs cs' : List (Charger n)}
  {k : ℕ}

theorem idle (installations : List Installation) :
    LinedUp ([] : List (Fin n)) [] (installations.map .idle) 0 := by
  have hnobody : entries (installations.map (Charger.idle : Installation → Charger n)) = [] := by
    simp [entries, Charger.idle]
  refine ⟨rfl, le_rfl, by simp, ?_, ?_, ?_, ?_⟩
  · rw [hnobody]
    exact List.nodup_nil
  · rw [hnobody]
    simp
  all_goals
    intro c hc
    obtain ⟨i, -, rfl⟩ := List.mem_map.mp hc
    simp [Charger.idle]

/-- A vehicle that joins the line gets the next handle. -/
theorem join (h : LinedUp registry queue cs k) (v : Fin n) :
    LinedUp (registry ++ [v]) (queue ++ [⟨registry.length, v⟩]) cs k where
  queue_eq := by
    have hk := h.le_next
    rw [List.map_append, h.queue_eq, List.length_append, List.length_singleton,
      show registry.length + 1 - k = registry.length - k + 1 by omega, List.range'_concat,
      show k + 1 * (registry.length - k) = registry.length by omega]
    rfl
  le_next := by
    rw [List.length_append]
    exact h.le_next.trans (Nat.le_add_right _ _)
  queued t ht := by
    rcases List.mem_append.mp ht with hold | hnew
    · -- an earlier ticket still names an entry of the registry
      have hregistered := h.queued t hold
      rwa [List.getElem?_append_left (List.getElem?_eq_some_iff.mp hregistered).1]
    · -- the new ticket names the new entry
      cases List.mem_singleton.mp hnew
      exact List.getElem?_concat_length
  nodup := h.nodup
  admitted e he := by
    obtain ⟨handle, hlt, hid, hregistered⟩ := h.admitted e he
    refine ⟨handle, hlt, hid, ?_⟩
    rwa [List.getElem?_append_left (List.getElem?_eq_some_iff.mp hregistered).1]
  increasing := h.increasing
  length_le := h.length_le

theorem id_lt (h : LinedUp registry queue cs k) {e : ℤ × Fin n} (he : e ∈ entries cs) :
    e.1 < k := by
  obtain ⟨handle, hlt, hid, -⟩ := h.admitted e he
  omega

theorem le_handle (h : LinedUp registry queue cs k) {t : Ticket n} (ht : t ∈ queue) :
    k ≤ t.handle := by
  have hmem := List.mem_map_of_mem (f := Ticket.handle) ht
  rw [h.queue_eq] at hmem
  exact (List.mem_range'_1.mp hmem).1

/-- The line holds the handles in increasing order. -/
theorem pairwise_queue (h : LinedUp registry queue cs k) :
    (queue.map fun t => (t.handle : ℤ)).Pairwise (· < ·) := by
  have hline : (queue.map Ticket.handle).Pairwise (· < ·) := by
    rw [h.queue_eq]
    exact List.pairwise_lt_range'
  rw [List.pairwise_map] at hline ⊢
  exact hline.imp Nat.cast_lt.mpr

/-- The front of the line has the handles from `k` on, and the others follow. -/
theorem handles_append {admitted : List (Ticket n)}
    (h : LinedUp registry (admitted ++ rest) cs k) :
    admitted.map Ticket.handle = List.range' k admitted.length ∧
      rest.map Ticket.handle = List.range' (k + admitted.length) rest.length ∧
      k + admitted.length + rest.length = registry.length := by
  have hk := h.le_next
  have hhandles := h.queue_eq
  have hlength := congrArg List.length hhandles
  rw [List.length_map, List.length_append, List.length_range'] at hlength
  rw [List.map_append, ← hlength, ← List.range'_append_1] at hhandles
  obtain ⟨hadmitted, hrest⟩ := List.append_inj hhandles (by simp)
  exact ⟨hadmitted, hrest, by omega⟩

/-- **Admission** lets in the handles at the front of the line. -/
theorem fill (h : LinedUp registry queue cs k) (hfilled : Filled cs queue cs' rest) :
    ∃ k', k ≤ k' ∧ LinedUp registry rest cs' k' := by
  obtain ⟨admitted, rfl, hperm⟩ := hfilled.perm_entries
  obtain ⟨hadmitted, hrest, hlength⟩ := h.handles_append
  refine ⟨k + admitted.length, Nat.le_add_right _ _, ?_⟩
  constructor
  case queue_eq => rw [hrest, ← hlength, Nat.add_sub_cancel_left]
  case le_next => omega
  case queued =>
    intro t ht
    exact h.queued t (List.mem_append_right _ ht)
  case nodup =>
    have hline := h.pairwise_queue.sublist ((List.sublist_append_left admitted rest).map _)
    rw [(hperm.map _).nodup_iff, List.map_append, List.map_map, List.nodup_append]
    refine ⟨h.nodup, hline.imp ne_of_lt, ?_⟩
    -- those who were plugged in have lower handles than those let in now
    intro id hid id' hid'
    obtain ⟨e, he, rfl⟩ := List.mem_map.mp hid
    obtain ⟨t, ht, rfl⟩ := List.mem_map.mp hid'
    have hle := h.le_handle (List.mem_append_left rest ht)
    exact ((h.id_lt he).trans_le (Nat.cast_le.mpr hle)).ne
  case admitted =>
    intro e he
    rcases List.mem_append.mp (hperm.mem_iff.mp he) with hold | hlet
    · obtain ⟨handle, hlt, hid, hregistered⟩ := h.admitted e hold
      exact ⟨handle, by omega, hid, hregistered⟩
    · obtain ⟨t, ht, rfl⟩ := List.mem_map.mp hlet
      have hmem := List.mem_map_of_mem (f := Ticket.handle) ht
      rw [hadmitted] at hmem
      exact ⟨t.handle, (List.mem_range'_1.mp hmem).2, rfl,
        h.queued t (List.mem_append_left _ ht)⟩
  case increasing =>
    intro c' hc'
    obtain ⟨c, hc, tickets, hsublist, hplugged⟩ := exists_left_of_forall₂ hfilled.forall₂ hc'
    rw [Charger.eq_receive_of_plugInAll? hplugged, Charger.receive, List.map_append, List.map_map,
      List.pairwise_append]
    -- the tickets keep the order of the line
    refine ⟨h.increasing c hc, h.pairwise_queue.sublist (hsublist.map _), ?_⟩
    intro id hid id' hid'
    obtain ⟨o, ho, rfl⟩ := List.mem_map.mp hid
    obtain ⟨t, ht, rfl⟩ := List.mem_map.mp hid'
    have hle := h.le_handle (hsublist.subset ht)
    have hlt : o.id < k := h.id_lt (mem_entries.mpr ⟨c, hc, o, ho, rfl⟩)
    exact hlt.trans_le (Nat.cast_le.mpr hle)
  case length_le =>
    intro c' hc'
    obtain ⟨c, hc, tickets, -, hplugged⟩ := exists_left_of_forall₂ hfilled.forall₂ hc'
    exact Charger.length_le_of_plugInAll? hplugged (h.length_le c hc)

/-- **Re-allocation** strikes out those who leave. -/
theorem settle {fleet : Fleet n} (h : LinedUp registry queue cs k)
    (hreallocated : List.Forall₂ (Charger.ReallocatesTo fleet) cs cs') :
    LinedUp registry queue cs' k where
  queue_eq := h.queue_eq
  le_next := h.le_next
  queued := h.queued
  nodup := h.nodup.sublist ((sublist_entries hreallocated).map _)
  admitted e he := h.admitted e ((sublist_entries hreallocated).subset he)
  increasing c' hc' := by
    obtain ⟨c, hc, vs, hvs, rfl⟩ := exists_left_of_forall₂ hreallocated hc'
    have hkept := (staying_sublist hvs.forall₂).map Prod.fst
    rw [List.map_map, List.map_map] at hkept
    exact (h.increasing c hc).sublist hkept
  length_le c' hc' := by
    obtain ⟨c, hc, vs, hvs, rfl⟩ := exists_left_of_forall₂ hreallocated hc'
    exact (length_staying_le hvs.forall₂).trans (h.length_le c hc)

end LinedUp

/-! ### Shares of the line -/

/-- Every charger gets its share of the front of the line, and a charger gets nothing while one
before it has a free plug. -/
theorem Filled.exists_shares {cs cs' : List (Charger n)} {queue rest : List (Ticket n)}
    (h : Filled cs queue cs' rest) :
    ∃ shares : List (List (Ticket n)), queue = shares.flatten ++ rest ∧
      shares.length = cs.length ∧ List.zipWith Charger.plugInAll? cs shares = cs'.map .ok ∧
      (cs'.zip shares).Pairwise fun a b => a.1.hasFreePlug = true → b.2 = [] := by
  induction h with
  | done queue => exact ⟨[], rfl, rfl, rfl, List.Pairwise.nil⟩
  | @next c c' cs cs' admitted left rest hplugged hfull _ ih =>
    obtain ⟨shares, hleft, hlength, hzip, horder⟩ := ih
    refine ⟨admitted :: shares, ?_, congrArg Nat.succ hlength, ?_, ?_⟩
    · rw [hleft, List.flatten_cons, List.append_assoc]
    · rw [List.zipWith_cons_cons, hplugged, hzip, List.map_cons]
    · refine List.pairwise_cons.mpr ⟨?_, horder⟩
      intro b hb hfree
      -- a plug is free only if nobody was left in the line
      rcases hfull with hnobody | hoccupied
      · rw [hnobody] at hleft
        have hempty : shares.flatten = [] := (List.append_eq_nil_iff.mp hleft.symm).1
        exact List.flatten_eq_nil_iff.mp hempty b.2 (List.of_mem_zip hb).2
      · rw [hoccupied] at hfree
        cases hfree

/-- What a re-allocation may do to the plugs of a charger: those who stay keep their order, and
those who leave have finished. -/
def Charger.LetsGo (fleet : Fleet n) (c c' : Charger n) : Prop :=
  (c'.occupants.map Occupant.id).Sublist (c.occupants.map Occupant.id) ∧
    ∀ o ∈ c.occupants, o.id ∉ c'.occupants.map Occupant.id →
      (o.vehicleIn fleet).isFinished = true

theorem Charger.letsGo_of_reallocatesTo {fleet : Fleet n} {c c' : Charger n}
    (h : c.ReallocatesTo fleet c') : c.LetsGo fleet c' := by
  obtain ⟨vs, hvs, rfl⟩ := h
  constructor
  · -- whoever stays has been there, in the same order
    have hkept := (staying_sublist hvs.forall₂).map Prod.fst
    rw [List.map_map, List.map_map] at hkept
    exact hkept
  · -- whoever is not there any more has been let go of as finished
    intro o ho hleft
    rcases hvs.isFinished_or_kept ho with hfinished | ⟨kept, hkept, hentry⟩
    · exact hfinished
    · have hid : kept.id = o.id := congrArg Prod.fst hentry
      exact absurd (hid ▸ List.mem_map_of_mem hkept) hleft

namespace Simulation

/-- Admission gives the chargers these shares of the line. -/
structure Admits (s : Simulation n) (shares : List (List (Ticket n))) : Prop where
  /-- The shares are the front of the line, in its order. -/
  queue_eq : s.queue = shares.flatten ++ s.fillPlugs.1.queue
  length_eq : shares.length = s.chargers.length
  /-- Each charger plugs in the holders of its share, which never fails. -/
  plugged : List.zipWith Charger.plugInAll? s.chargers shares = s.fillPlugs.1.chargers.map .ok
  /-- A charger gets nothing while one before it has a free plug. -/
  inOrder : (s.fillPlugs.1.chargers.zip shares).Pairwise fun a b =>
    a.1.hasFreePlug = true → b.2 = []
  /-- In the end the line or the free plugs are used up. -/
  full : s.fillPlugs.1.queue = [] ∨ ∀ c ∈ s.fillPlugs.1.chargers, c.hasFreePlug = false

theorem exists_admits (s : Simulation n) : ∃ shares, s.Admits shares := by
  have hfilled := filled_fillAllPlugs s.chargers s.queue
  obtain ⟨shares, hqueue, hlength, hzip, horder⟩ := hfilled.exists_shares
  exact ⟨shares, hqueue, hlength, hzip, horder, hfilled.full⟩

/-! ### Departures -/

/-- The holder of the handle leaves its plug in the next step, its vehicle having finished when
power is re-allocated. -/
structure Departs (s : Simulation n) (handle : ℕ) : Prop where
  finished : ∃ c ∈ s.fillPlugs.1.chargers, ∃ o ∈ c.occupants,
    o.id = handle ∧ (o.vehicleIn s.fleet).isFinished = true
  not_plugged : (handle : ℤ) ∉ s.step.simulation.plugged

/-- The handle has been given out, and its holder is neither in the line nor plugged in. -/
structure HasLeft (s : Simulation n) (handle : ℕ) : Prop where
  given : handle < s.registry.length
  not_queued : handle ∉ s.queue.map Ticket.handle
  not_plugged : (handle : ℤ) ∉ s.plugged

/-- In the history from `s` to `t` there is a step in which the holder of the handle departs. -/
def Departed (s : Simulation n) (frames : List Frame) (t : Simulation n) (handle : ℕ) : Prop :=
  ∃ before u frame after, Evolves s before u ∧ u.step.result = .ok frame ∧ u.Departs handle ∧
    Evolves u.step.simulation after t ∧ frames = before ++ frame :: after

namespace Stepped

variable {s t : Simulation n} {filled : List (Charger n)} {delivered : Energy} {frame : Frame}

theorem linedUp {k : ℕ} (h : s.Stepped filled delivered frame t)
    (hs : LinedUp s.registry s.queue s.chargers k) :
    ∃ k', LinedUp t.registry t.queue t.chargers k' := by
  obtain ⟨k', -, hfilled⟩ := hs.fill h.admission
  rw [h.registry_eq]
  exact ⟨k', hfilled.settle h.reallocation⟩

/-- Whoever is plugged in after a step was so before it, or waited in the line. -/
theorem plugged_or_queued (h : s.Stepped filled delivered frame t) {handle : ℕ}
    (hplugged : (handle : ℤ) ∈ t.plugged) :
    (handle : ℤ) ∈ s.plugged ∨ handle ∈ s.queue.map Ticket.handle := by
  obtain ⟨admitted, hqueue, hperm⟩ := h.admission.perm_entries
  obtain ⟨e, he, hid⟩ := List.mem_map.mp hplugged
  have hfilled := (sublist_entries h.reallocation).subset he
  rcases List.mem_append.mp (hperm.mem_iff.mp hfilled) with hold | hnew
  · -- it was plugged in before
    exact .inl (List.mem_map.mpr ⟨e, hold, hid⟩)
  · -- it was admitted from the queue
    right
    obtain ⟨ticket, hticket, rfl⟩ := List.mem_map.mp hnew
    rw [hqueue, ← Nat.cast_inj.mp hid]
    exact List.mem_map_of_mem (List.mem_append_left _ hticket)

/-- **Who is plugged in or waits** does so after the step as well, or its vehicle has finished when
power is re-allocated. -/
theorem stays_or_finished (h : s.Stepped filled delivered frame t) {handle : ℕ}
    (hs : (handle : ℤ) ∈ s.plugged ∨ handle ∈ s.queue.map Ticket.handle) :
    (handle : ℤ) ∈ t.plugged ∨ handle ∈ t.queue.map Ticket.handle ∨
      ∃ c ∈ filled, ∃ o ∈ c.occupants, o.id = handle ∧ (o.vehicleIn s.fleet).isFinished = true := by
  obtain ⟨admitted, hqueue, hperm⟩ := h.admission.perm_entries
  -- whoever is plugged in after admission is kept or has finished
  have hkept : ∀ e ∈ entries filled, e.1 = (handle : ℤ) → (handle : ℤ) ∈ t.plugged ∨
      ∃ c ∈ filled, ∃ o ∈ c.occupants, o.id = handle ∧
        (o.vehicleIn s.fleet).isFinished = true := by
    intro e he hid
    obtain ⟨c, hc, o, ho, rfl⟩ := mem_entries.mp he
    obtain ⟨c', hc', vs, hvs, rfl⟩ := exists_right_of_forall₂ h.reallocation hc
    rcases hvs.isFinished_or_kept ho with hfinished | ⟨kept, hmem, hentry⟩
    · exact .inr ⟨c, hc, o, ho, hid, hfinished⟩
    · left
      exact mem_plugged.mpr ⟨_, hc', kept, hmem, (congrArg Prod.fst hentry).trans hid⟩
  rcases hs with hplugged | hqueued
  · obtain ⟨e, he, hid⟩ := List.mem_map.mp hplugged
    have hfilled := hperm.mem_iff.mpr (List.mem_append_left _ he)
    exact (hkept e hfilled hid).imp id .inr
  · obtain ⟨ticket, hticket, rfl⟩ := List.mem_map.mp hqueued
    rw [hqueue] at hticket
    rcases List.mem_append.mp hticket with hadmitted | hrest
    · have hentry := List.mem_map_of_mem (f := Ticket.entry) hadmitted
      have hfilled := hperm.mem_iff.mpr (List.mem_append_right _ hentry)
      exact (hkept _ hfilled rfl).imp id .inr
    · exact .inr (.inl (List.mem_map_of_mem hrest))

/-- Whoever a frame lists was plugged in after admission, and its vehicle had not finished. -/
theorem exists_unfinished (h : s.Stepped filled delivered frame t) {entry : VehicleFrame}
    (hentry : entry ∈ frame.vehicles) :
    ∃ e ∈ entries filled, entry.vehicle = e.1 ∧ (s.fleet.get e.2).isFinished = false := by
  have hlisted := List.mem_map_of_mem (f := VehicleFrame.vehicle) hentry
  rw [h.vehicles_eq] at hlisted
  obtain ⟨c', hc', kept, hkept, hid⟩ := mem_plugged.mp hlisted
  obtain ⟨c, hc, vs, hvs, rfl⟩ := exists_left_of_forall₂ h.reallocation hc'
  obtain ⟨o, ho, heq, hunfinished, -⟩ := hvs.exists_of_mem_staying hkept
  refine ⟨o.entry, mem_entries.mpr ⟨c, hc, o, ho, rfl⟩, ?_, hunfinished⟩
  rw [← hid]
  exact congrArg Prod.fst heq

/-- Who has left does not come back, and the frame does not list it. -/
theorem hasLeft (h : s.Stepped filled delivered frame t) {handle : ℕ} (hs : s.HasLeft handle) :
    t.HasLeft handle ∧ (handle : ℤ) ∉ frame.vehicles.map VehicleFrame.vehicle := by
  have hplugged : (handle : ℤ) ∉ t.plugged := by
    intro hmem
    rcases h.plugged_or_queued hmem with hold | hqueued
    · exact hs.not_plugged hold
    · exact hs.not_queued hqueued
  rw [h.vehicles_eq]
  refine ⟨⟨?_, ?_, hplugged⟩, hplugged⟩
  · -- a handle that was given stays given
    rw [h.registry_eq]
    exact hs.given
  · -- the queue only gets shorter
    intro hqueued
    exact hs.not_queued ((h.admission.sublist.map _).subset hqueued)

end Stepped

namespace Evolves

variable {s t : Simulation n} {frames : List Frame}

theorem exists_linedUp {k : ℕ} (h : Evolves s frames t)
    (hs : LinedUp s.registry s.queue s.chargers k) :
    ∃ k', LinedUp t.registry t.queue t.chargers k' := by
  refine h.invariant (P := fun u => ∃ k', LinedUp u.registry u.queue u.chargers k') ⟨k, hs⟩ ?_ ?_
  · rintro u vehicle ⟨k', hu⟩
    exact ⟨k', hu.join vehicle⟩
  · rintro u filled delivered frame u' hstepped ⟨k', hu⟩
    exact hstepped.linedUp hu

/-- **Who has left has left for good.** -/
theorem hasLeft (h : Evolves s frames t) {handle : ℕ} (hs : s.HasLeft handle) :
    t.HasLeft handle ∧
      ∀ frame ∈ frames, (handle : ℤ) ∉ frame.vehicles.map VehicleFrame.vehicle := by
  induction h with
  | start => exact ⟨hs, by simp⟩
  | @join frames t _ vehicle ih =>
    obtain ⟨ht, hframes⟩ := ih
    refine ⟨⟨?_, ?_, ht.not_plugged⟩, hframes⟩
    · rw [registry_enqueue, List.length_append]
      exact ht.given.trans_le (Nat.le_add_right _ _)
    · -- the handle of the new vehicle has not been given out before
      rw [queue_enqueue, List.map_append, List.mem_append, not_or]
      refine ⟨ht.not_queued, ?_⟩
      rw [List.map_singleton, List.mem_singleton]
      exact ht.given.ne
  | step _ hstep ih =>
    obtain ⟨ht, hframes⟩ := ih
    obtain ⟨filled, delivered, hstepped⟩ := stepped_of_step hstep
    obtain ⟨hleft, hlisted⟩ := hstepped.hasLeft ht
    refine ⟨hleft, fun frame hframe => ?_⟩
    rcases List.mem_append.mp hframe with hold | hnew
    · exact hframes frame hold
    · cases List.mem_singleton.mp hnew
      exact hlisted

theorem departed_join {handle : ℕ} (h : Departed s frames t handle) (vehicle : Fin n) :
    Departed s frames (t.enqueue vehicle) handle := by
  obtain ⟨before, u, frame, after, hu, hstep, hdeparts, hafter, hframes⟩ := h
  exact ⟨before, u, frame, after, hu, hstep, hdeparts, hafter.join vehicle, hframes⟩

theorem departed_step {handle : ℕ} (h : Departed s frames t handle) {frame : Frame}
    (hstep : t.step.result = .ok frame) :
    Departed s (frames ++ [frame]) t.step.simulation handle := by
  obtain ⟨before, u, first, after, hu, hfirst, hdeparts, hafter, rfl⟩ := h
  refine ⟨before, u, first, after ++ [frame], hu, hfirst, hdeparts, hafter.step hstep, ?_⟩
  rw [List.append_assoc, List.cons_append]

/-- **Nobody is lost**: whoever was given a handle waits, is plugged in, or has departed. -/
theorem waits_or_plugged_or_departed (h : Evolves s frames t) (hs : s.registry = [])
    {handle : ℕ} (hgiven : handle < t.registry.length) :
    ((handle : ℤ) ∈ t.plugged ∨ handle ∈ t.queue.map Ticket.handle) ∨
      Departed s frames t handle := by
  induction h with
  | start =>
    rw [hs] at hgiven
    exact absurd hgiven (Nat.not_lt_zero _)
  | @join frames t _ vehicle ih =>
    rw [registry_enqueue, List.length_append, List.length_singleton] at hgiven
    rw [queue_enqueue, List.map_append, List.mem_append]
    rcases Nat.lt_succ_iff_lt_or_eq.mp hgiven with hold | rfl
    · -- it was given before, and nothing happens to it
      rcases ih hold with (hplugged | hqueued) | hdeparted
      · exact .inl (.inl hplugged)
      · exact .inl (.inr (.inl hqueued))
      · exact .inr (departed_join hdeparted vehicle)
    · -- it is the new one, which is queued
      exact .inl (.inr (.inr (by simp)))
  | @step frames frame t h hstep ih =>
    obtain ⟨delivered, hstepped⟩ := stepped_fillPlugs hstep
    rw [hstepped.registry_eq] at hgiven
    rcases ih hgiven with hpresent | hdeparted
    · -- who was present stays, or leaves with this frame
      by_cases hplugged : (handle : ℤ) ∈ t.step.simulation.plugged
      · exact .inl (.inl hplugged)
      · rcases hstepped.stays_or_finished hpresent with hstays | hqueued | hfinished
        · exact absurd hstays hplugged
        · exact .inl (.inr hqueued)
        · exact .inr ⟨frames, t, frame, [], h, hstep, ⟨hfinished, hplugged⟩, .start, rfl⟩
    · -- who had departed before stays away
      exact .inr (departed_step hdeparted hstep)

end Evolves

/-! ### The life of a handle -/

/-- **The life of a handle.**  At every moment of a history from idle chargers there is a `k` such
that the line holds the handles from `k` on, in order; whoever has a handle below `k` is plugged in,
once and at one charger, or has departed for good, at a re-allocation at which its vehicle had
finished.  Admission gives the front of the line to the chargers in their order, always to free
plugs, until the line or the plugs are used up.  In a step nobody leaves whose vehicle has not
finished, and the frame lists nobody whose vehicle has. -/
theorem handles_life_cycle {fleet : Fleet n} {installations : List Installation}
    {stepDuration : StepDuration} {frames : List Frame} {s : Simulation n}
    (h : Evolves (create fleet installations stepDuration) frames s) :
    (∃ k, LinedUp s.registry s.queue s.chargers k ∧
      ∀ handle < k, (handle : ℤ) ∉ s.plugged →
        Departed (create fleet installations stepDuration) frames s handle ∧
        ∀ later t, Evolves s later t → t.HasLeft handle ∧
          ∀ frame ∈ later, (handle : ℤ) ∉ frame.vehicles.map VehicleFrame.vehicle) ∧
    (∃ shares, s.Admits shares) ∧
    ∀ frame, s.step.result = .ok frame →
      List.Forall₂ (Charger.LetsGo s.fleet) s.fillPlugs.1.chargers s.step.simulation.chargers ∧
      frame.vehicles.map VehicleFrame.vehicle = s.step.simulation.plugged ∧
      ∀ entry ∈ frame.vehicles, ∃ handle v, entry.vehicle = (handle : ℕ) ∧
        s.registry[handle]? = some v ∧ (s.fleet.get v).isFinished = false := by
  obtain ⟨k, hk⟩ := h.exists_linedUp (.idle installations)
  refine ⟨⟨k, hk, fun handle hlt hnot => ?_⟩, s.exists_admits, fun frame hstep => ?_⟩
  · have hgiven : handle < s.registry.length := hlt.trans_le hk.le_next
    have hqueued : handle ∉ s.queue.map Ticket.handle := by
      rw [hk.queue_eq, List.mem_range'_1]
      omega
    constructor
    · rcases h.waits_or_plugged_or_departed rfl hgiven with (hplugged | hwaits) | hdeparted
      · exact absurd hplugged hnot
      · exact absurd hwaits hqueued
      · exact hdeparted
    · intro later t hlater
      exact hlater.hasLeft ⟨hgiven, hqueued, hnot⟩
  · obtain ⟨delivered, hstepped⟩ := stepped_fillPlugs hstep
    refine ⟨hstepped.reallocation.imp fun _ _ => Charger.letsGo_of_reallocatesTo,
      hstepped.vehicles_eq, fun entry hentry => ?_⟩
    obtain ⟨e, hfilled, hid, hunfinished⟩ := hstepped.exists_unfinished hentry
    obtain ⟨k', -, hk'⟩ := hk.fill hstepped.admission
    obtain ⟨handle, -, heq, hregistered⟩ := hk'.admitted e hfilled
    exact ⟨handle, e.2, hid.trans heq, hregistered, hunfinished⟩

/-- Two steps at a single plug: the first of two sample vehicles has departed, and the second one
waits. -/
theorem sampleQueue_life_cycle :
    ∃ frames, Evolves (create samplePair.fleet [⟨⟨11000⟩, .exclusive⟩] halfHour) frames
        sampleQueue.step.simulation.step.simulation ∧
      Departed (create samplePair.fleet [⟨⟨11000⟩, .exclusive⟩] halfHour) frames
        sampleQueue.step.simulation.step.simulation 0 ∧
      sampleQueue.step.simulation.step.simulation.queue.map Ticket.handle = [1] := by
  obtain ⟨frames, h⟩ := evolves_sampleQueue
  obtain ⟨⟨k, hk, hdeparted⟩, -, -⟩ := handles_life_cycle h
  have hqueue : sampleQueue.step.simulation.step.simulation.queue.map Ticket.handle = [1] := by
    decide +kernel
  have hnobody : ((0 : ℕ) : ℤ) ∉ sampleQueue.step.simulation.step.simulation.plugged := by
    decide +kernel
  have hone : k = 1 := by
    have hline := hk.queue_eq
    have hle := hk.le_next
    rw [hqueue] at hline
    have hlength := congrArg List.length hline
    rw [List.length_range'] at hlength
    have hregistry : sampleQueue.step.simulation.step.simulation.registry.length = 2 := by
      decide +kernel
    simp only [List.length_cons, List.length_nil] at hlength
    omega
  exact ⟨frames, h, (hdeparted 0 (by omega) hnobody).1, hqueue⟩

end Simulation

end ChargingSite

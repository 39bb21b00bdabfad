import ChargingSite.Proofs.Simulation.Step

/-!
# Histories

A simulation has a history: vehicles join its line and successful steps are made, in any order
(`Simulation.Evolves`).  Every frame of a history comes from a step made on the way
(`Evolves.exists_step`), and what joining and stepping preserve holds at its end
(`Evolves.invariant`).

Who is plugged in is read off the entries of the chargers, the numbers and vehicles of their
occupants: admission adds those let in (`Filled.perm_entries`), re-allocation strikes out those who
leave (`sublist_entries`), and a frame lists those who are left (`Stepped.vehicles_eq`) and shows
every charger (`Stepped.chargers_shown`).
-/

namespace ChargingSite

variable {n : ℕ}

/-! ### Entries -/

/-- The numbers and vehicles of all occupants, charger by charger in plug-in order. -/
def entries (cs : List (Charger n)) : List (ℤ × Fin n) :=
  (cs.flatMap Charger.occupants).map Occupant.entry

theorem mem_entries {cs : List (Charger n)} {e : ℤ × Fin n} :
    e ∈ entries cs ↔ ∃ c ∈ cs, ∃ o ∈ c.occupants, o.entry = e := by
  simp only [entries, List.mem_map, List.mem_flatMap]
  constructor
  · rintro ⟨o, ⟨c, hc, ho⟩, he⟩
    exact ⟨c, hc, o, ho, he⟩
  · rintro ⟨c, hc, o, ho, he⟩
    exact ⟨o, ⟨c, hc, ho⟩, he⟩

theorem entries_cons (c : Charger n) (cs : List (Charger n)) :
    entries (c :: cs) = c.occupants.map Occupant.entry ++ entries cs := by
  rw [entries, List.flatMap_cons, List.map_append, entries]

/-- What a ticket becomes on a plug. -/
def Ticket.entry (t : Ticket n) : ℤ × Fin n :=
  (t.handle, t.vehicle)

theorem Charger.entries_receive (c : Charger n) (tickets : List (Ticket n)) :
    (c.receive tickets).occupants.map Occupant.entry =
      c.occupants.map Occupant.entry ++ tickets.map Ticket.entry := by
  rw [receive, List.map_append, List.map_map]
  rfl

theorem Filled.perm_entries {cs cs' : List (Charger n)} {queue rest : List (Ticket n)}
    (h : Filled cs queue cs' rest) :
    ∃ admitted, queue = admitted ++ rest ∧
      (entries cs').Perm (entries cs ++ admitted.map Ticket.entry) := by
  obtain ⟨admitted, hqueue, hperm⟩ := h.perm
  refine ⟨admitted, hqueue, ?_⟩
  have hentries := hperm.map Occupant.entry
  rw [List.map_append, List.map_map] at hentries
  exact hentries

theorem sublist_entries {fleet : Fleet n} {cs cs' : List (Charger n)}
    (h : List.Forall₂ (Charger.ReallocatesTo fleet) cs cs') :
    (entries cs').Sublist (entries cs) := by
  induction h with
  | nil => exact List.Sublist.slnil
  | cons head _ ih =>
    obtain ⟨vs, hvs, rfl⟩ := head
    rw [entries_cons, entries_cons]
    exact (staying_sublist hvs.forall₂).append ih

/-! ### What frames list -/

/-- The number of an occupant and the power granted to it. -/
def Occupant.grant (o : Occupant n) : ℤ × Power :=
  (o.id, o.allocated)

/-- The number and the power that an entry of a frame shows. -/
def VehicleFrame.grant (entry : VehicleFrame) : ℤ × Power :=
  (entry.vehicle, ⟨entry.allocatedWatts⟩)

theorem grants_eq_of_frames {fleet : Fleet n} {os : List (Occupant n)} {listed : List VehicleFrame}
    (h : List.Forall₂ (fun o entry => o.frame? fleet = .ok entry) os listed) :
    listed.map VehicleFrame.grant = os.map Occupant.grant := by
  refine (map_eq_map_of_forall₂ h fun o entry hframe => ?_).symm
  obtain ⟨soc, -, rfl⟩ := Occupant.frame?_eq_ok_iff.mp hframe
  rfl

namespace Simulation

/-- The numbers of all who are plugged in. -/
def plugged (s : Simulation n) : List ℤ :=
  (entries s.chargers).map Prod.fst

theorem mem_plugged {s : Simulation n} {id : ℤ} :
    id ∈ s.plugged ↔ ∃ c ∈ s.chargers, ∃ o ∈ c.occupants, o.id = id := by
  simp only [plugged, List.mem_map, mem_entries]
  constructor
  · rintro ⟨_, ⟨c, hc, o, ho, rfl⟩, hid⟩
    exact ⟨c, hc, o, ho, hid⟩
  · rintro ⟨c, hc, o, ho, hid⟩
    exact ⟨_, ⟨c, hc, o, ho, rfl⟩, hid⟩

namespace Stepped

variable {s t : Simulation n} {filled : List (Charger n)} {delivered : Energy} {frame : Frame}

theorem frames_occupants (h : s.Stepped filled delivered frame t) :
    List.Forall₂ (fun o entry => o.frame? t.fleet = .ok entry)
      (t.chargers.flatMap Charger.occupants) frame.vehicles :=
  (frame?_eq_ok_iff.mp h.frame_eq).1

/-- **A frame lists those who are plugged in**, charger by charger in plug-in order. -/
theorem vehicles_eq (h : s.Stepped filled delivered frame t) :
    frame.vehicles.map VehicleFrame.vehicle = t.plugged := by
  have hlisted := congrArg (List.map Prod.fst) (grants_eq_of_frames h.frames_occupants)
  rw [List.map_map, List.map_map] at hlisted
  rw [plugged, entries, List.map_map]
  exact hlisted

theorem chargers_eq (h : s.Stepped filled delivered frame t) :
    frame.chargers = t.chargers.mapIdx fun position c => c.frame position :=
  congrArg Frame.chargers (frame?_eq_ok_iff.mp h.frame_eq).2

/-- **A frame shows every charger**, in order. -/
theorem chargers_shown (h : s.Stepped filled delivered frame t) :
    List.Forall₂ (fun (c : Charger n) shown => ∃ position : ℕ, shown = c.frame position)
      t.chargers frame.chargers := by
  rw [h.chargers_eq]
  exact forall₂_mapIdx _ fun position c => ⟨position, rfl⟩

theorem activeWatts_eq (h : s.Stepped filled delivered frame t) :
    frame.chargers.map ChargerFrame.activeWatts = t.chargers.map fun c => c.allocated.watts := by
  refine (map_eq_map_of_forall₂ h.chargers_shown ?_).symm
  rintro c shown ⟨position, rfl⟩
  rfl

/-- The count, the time and the energy that a frame shows. -/
theorem frame_totals (h : s.Stepped filled delivered frame t) :
    frame.step = t.steps ∧ frame.elapsedSeconds = t.elapsed.seconds ∧
      frame.dispensedWh = delivered.wattHours := by
  rw [(frame?_eq_ok_iff.mp h.frame_eq).2]
  exact ⟨rfl, rfl, rfl⟩

end Stepped

/-! ### Histories -/

/-- What comes of a simulation as vehicles join its line and successful steps are made, in any
order, and the frames of the steps. -/
inductive Evolves (s : Simulation n) : List Frame → Simulation n → Prop
  /-- Nothing has happened yet. -/
  | start : Evolves s [] s
  /-- One more vehicle joins the line. -/
  | join {frames : List Frame} {t : Simulation n} (h : Evolves s frames t) (vehicle : Fin n) :
      Evolves s frames (t.enqueue vehicle)
  /-- One more step. -/
  | step {frames : List Frame} {frame : Frame} {t : Simulation n} (h : Evolves s frames t)
      (hstep : t.step.result = .ok frame) : Evolves s (frames ++ [frame]) t.step.simulation

namespace Evolves

variable {s t : Simulation n} {frames : List Frame}

theorem enqueueAll (h : Evolves s frames t) (vehicles : List (Fin n)) :
    Evolves s frames (t.enqueueAll vehicles) := by
  induction vehicles generalizing t with
  | nil => exact h
  | cons v vehicles ih => exact ih (h.join v)

/-- What joining the line and successful steps preserve holds at the end of every history. -/
theorem invariant {P : Simulation n → Prop} (h : Evolves s frames t) (start : P s)
    (join : ∀ u vehicle, P u → P (u.enqueue vehicle))
    (step : ∀ u filled delivered frame u', u.Stepped filled delivered frame u' → P u → P u') :
    P t := by
  induction h with
  | start => exact start
  | join _ vehicle ih => exact join _ vehicle ih
  | step _ hstep ih =>
    obtain ⟨filled, delivered, hstepped⟩ := stepped_of_step hstep
    exact step _ _ _ _ _ hstepped ih

/-- Every frame comes from a step made on the way. -/
theorem exists_step (h : Evolves s frames t) {frame : Frame} (hframe : frame ∈ frames) :
    ∃ before u, Evolves s before u ∧ u.step.result = .ok frame := by
  induction h with
  | start => cases hframe
  | join _ _ ih => exact ih hframe
  | step h hstep ih =>
    -- the frame was there before this step, or this step has made it
    rcases List.mem_append.mp hframe with hold | hnew
    · exact ih hold
    · cases List.mem_singleton.mp hnew
      exact ⟨_, _, h, hstep⟩

/-- **Invariants of a charger** hold of the chargers at every moment of a history, which stay at
their installations: it is enough that idle chargers have them and that plugging in and successful
re-allocations preserve them. -/
theorem chargers_invariant {P : Charger n → Prop} {fleet : Fleet n}
    {installations : List Installation} {stepDuration : StepDuration}
    (h : Evolves (create fleet installations stepDuration) frames t) (idle : ∀ i, P (.idle i))
    (occupy : ∀ c vehicle id, c.hasFreePlug = true → P c → P (c.occupy vehicle id))
    (reallocate : ∀ c fleet vs, Reallocated fleet c vs → P c →
      P { c with occupants := staying vs }) :
    List.Forall₂ (fun i c => c.toInstallation = i ∧ P c) installations t.chargers := by
  refine h.invariant
    (P := fun u => List.Forall₂ (fun i (c : Charger n) => c.toInstallation = i ∧ P c)
      installations u.chargers) ?start (fun u vehicle hu => hu) ?step
  case start =>
    refine List.forall₂_map_right_iff.mpr (List.forall₂_same.mpr fun i _ => ?_)
    exact ⟨rfl, idle i⟩
  case step =>
    intro u filled delivered frame u' hstepped hu
    -- a charger has plugged in some of the line, and has then re-allocated
    have hfilled : List.Forall₂ (fun i c => c.toInstallation = i ∧ P c) installations filled := by
      refine forall₂_trans hu hstepped.admission.forall₂ ?_
      rintro i c c' ⟨rfl, hc⟩ ⟨admitted, -, hplugged⟩
      exact c.plugInAll?_invariant occupy hplugged hc
    refine forall₂_trans hfilled hstepped.reallocation ?_
    rintro i c c' ⟨rfl, hc⟩ ⟨vs, hvs, rfl⟩
    exact ⟨rfl, reallocate c _ vs hvs hc⟩

end Evolves

/-! ### A history to look at -/

/-- Steps of half an hour. -/
def halfHour : StepDuration :=
  ⟨⟨1800000000, by decide⟩, by decide⟩

/-- Two sample vehicles in the line of a single plug with 11 kW. -/
def sampleQueue : Simulation 2 :=
  (create samplePair.fleet [⟨⟨11000⟩, .exclusive⟩] halfHour).enqueueAll (List.finRange 2)

/-- The first vehicle charges for half an hour, and leaves in the second step. -/
theorem evolves_sampleQueue :
    ∃ frames, Evolves (create samplePair.fleet [⟨⟨11000⟩, .exclusive⟩] halfHour) frames
      sampleQueue.step.simulation.step.simulation := by
  have hfirst : sampleQueue.step.result.toBool = true := by decide +kernel
  have hsecond : sampleQueue.step.simulation.step.result.toBool = true := by decide +kernel
  have hjoined : Evolves (create samplePair.fleet [⟨⟨11000⟩, .exclusive⟩] halfHour) []
      sampleQueue :=
    (Evolves.start.join 0).join 1
  cases hstep : sampleQueue.step.result with
  | error e => rw [hstep] at hfirst; cases hfirst
  | ok frame =>
    cases hstep' : sampleQueue.step.simulation.step.result with
    | error e => rw [hstep'] at hsecond; cases hsecond
    | ok frame' => exact ⟨_, (hjoined.step hstep).step hstep'⟩

end Simulation

end ChargingSite

import ChargingSite.Proofs.Simulation.History
import ChargingSite.Proofs.Simulation.Sound

/-!
# Sessions one after the other

A session is what a vehicle goes through by itself (`Vehicle.Session`): while its energy is below
what it comes for, it takes what its curve allows of an offer, and at least the least charge power,
and stores that power held for the duration.  The vehicle, the offer and the duration determine it
(`Vehicle.Session.unique`).

An exclusive charger with a line goes through the sessions of the line in turn
(`exclusive_in_turn`).  That a vehicle has finished is noticed in the step after its last charge,
and its plug is free for the next one from the step after that on.  So each session leaves the
frames of its charges, which list the vehicle by itself, and then one frame that lists nobody; a
vehicle that has finished before it is plugged in leaves just that one.
-/

namespace ChargingSite

variable {n : ℕ} {grid : Power} {d : Duration}

/-! ### Sessions -/

namespace Vehicle

/-- The vehicle charges until its energy is not below what it comes for: the powers that it takes of
the offer, each with the energy stored afterwards, and the vehicle in the end. -/
inductive Session (offer : Power) (d : Duration) :
    Vehicle → List (Power × Energy) → Vehicle → Prop
  /-- It has what it comes for. -/
  | finished {v : Vehicle} (h : v.energy.lt v.unplugAt = false) : Session offer d v [] v
  /-- It takes a charge, and then the others. -/
  | charge {v last : Vehicle} {allowed : Power} {added : Energy} {charges : List (Power × Energy)}
      (h : v.energy.lt v.unplugAt = true) (hallowed : v.Allows allowed)
      (hadded : (max (min allowed offer) minimumCharge).over? d = .ok added)
      (rest : Session offer d { v with energy := v.energy + added } charges last) :
      Session offer d v ((max (min allowed offer) minimumCharge, v.energy + added) :: charges) last

theorem Allows.unique {v : Vehicle} {allowed allowed' : Power} (h : v.Allows allowed)
    (h' : v.Allows allowed') : allowed = allowed' := by
  obtain ⟨soc, hsoc, hallowed⟩ := h
  obtain ⟨soc', hsoc', hallowed'⟩ := h'
  cases hsoc.symm.trans hsoc'
  exact Except.ok.inj (hallowed.symm.trans hallowed')

/-- **A session is determined** by the vehicle, the offer and the duration. -/
theorem Session.unique {offer : Power} {v last last' : Vehicle}
    {charges charges' : List (Power × Energy)} (h : v.Session offer d charges last)
    (h' : v.Session offer d charges' last') : charges = charges' ∧ last = last' := by
  induction h generalizing charges' with
  | finished hfinished =>
    cases h' with
    | finished => exact ⟨rfl, rfl⟩
    | charge hbelow => rw [hfinished] at hbelow; cases hbelow
  | charge hbelow hallowed hadded _ ih =>
    cases h' with
    | finished hfinished => rw [hbelow] at hfinished; cases hfinished
    | charge _ hallowed' hadded' rest =>
      obtain rfl := hallowed.unique hallowed'
      cases hadded.symm.trans hadded'
      obtain ⟨rfl, rfl⟩ := ih rest
      exact ⟨rfl, rfl⟩

end Vehicle

/-- The frame lists one vehicle only, under the number, with the power of a charge and the state of
charge after it. -/
def Frame.ListsOnly (id : ℤ) (v : Vehicle) (charge : Power × Energy) (frame : Frame) : Prop :=
  ∃ soc, v.socOf? charge.2 = .ok soc ∧ frame.vehicles = [⟨id, charge.1.watts, soc.percent⟩]

/-- Sessions of numbered vehicles in turn, from one fleet to the other, and the frames that they
leave: those of the charges, and one that lists nobody, for each of them. -/
inductive InTurn (offer : Power) (d : Duration) (fleet fleet' : Fleet n) :
    List (ℤ × Fin n) → List (List (Power × Energy)) → List Frame → Prop
  /-- Nobody is left. -/
  | done : InTurn offer d fleet fleet' [] [] []
  /-- One session, and then the others. -/
  | session {id : ℤ} {vehicle : Fin n} {line : List (ℤ × Fin n)} {charges : List (Power × Energy)}
      {sessions : List (List (Power × Energy))} {shown frames : List Frame} {gap : Frame}
      (made : (fleet.get vehicle).Session offer d charges (fleet'.get vehicle))
      (listed : List.Forall₂ (Frame.ListsOnly id (fleet.get vehicle)) charges shown)
      (nobody : gap.vehicles = []) (rest : InTurn offer d fleet fleet' line sessions frames) :
      InTurn offer d fleet fleet' ((id, vehicle) :: line) (charges :: sessions)
        (shown ++ gap :: frames)

namespace InTurn

variable {fleet fleet' : Fleet n} {line : List (ℤ × Fin n)}
  {sessions : List (List (Power × Energy))} {frames : List Frame}

/-- **The number of frames** is that of the charges, and one more for each session. -/
theorem length_eq (h : InTurn grid d fleet fleet' line sessions frames) :
    frames.length = (sessions.map fun charges => charges.length + 1).sum := by
  induction h with
  | done => rfl
  | session _ listed _ _ ih =>
    rw [List.length_append, List.length_cons, ih, List.map_cons, List.sum_cons, listed.length_eq]
    omega

theorem congr {start : Fleet n} (h : InTurn grid d start fleet' line sessions frames)
    (hsame : ∀ e ∈ line, start.get e.2 = fleet.get e.2) :
    InTurn grid d fleet fleet' line sessions frames := by
  induction h with
  | done => exact .done
  | session made listed nobody _ ih =>
    obtain ⟨hfirst, hothers⟩ := List.forall_mem_cons.mp hsame
    rw [hfirst] at made listed
    exact .session made listed nobody (ih hothers)

variable {id : ℤ} {vehicle : Fin n} {frame : Frame}

/-- A vehicle that has finished has a session without charges. -/
theorem leave (h : InTurn grid d fleet fleet' line sessions frames)
    (hfinished : (fleet.get vehicle).isFinished = true)
    (hlast : fleet'.get vehicle = fleet.get vehicle) (nobody : frame.vehicles = []) :
    InTurn grid d fleet fleet' ((id, vehicle) :: line) ([] :: sessions) (frame :: frames) := by
  have hnotbelow : (fleet.get vehicle).energy.lt (fleet.get vehicle).unplugAt = false := by
    rw [Bool.eq_false_iff]
    intro hbelow
    have hunfinished : (fleet.get vehicle).isFinished = false := Binary64.not_le_of_lt hbelow
    rw [hfinished] at hunfinished
    cases hunfinished
  have made : (fleet.get vehicle).Session grid d [] (fleet'.get vehicle) := by
    rw [hlast]
    exact .finished hnotbelow
  have listed : List.Forall₂ (Frame.ListsOnly id (fleet.get vehicle)) [] [] := .nil
  exact .session made listed nobody h

/-- A charge before the first session is the first charge of a longer session. -/
theorem charge {after : Fleet n} {allowed : Power} {added : Energy}
    (h : InTurn grid d after fleet' ((id, vehicle) :: line) sessions frames)
    (hbelow : (fleet.get vehicle).energy.lt (fleet.get vehicle).unplugAt = true)
    (hallowed : (fleet.get vehicle).Allows allowed)
    (hadded : (max (min allowed grid) minimumCharge).over? d = .ok added)
    (hafter : after.get vehicle =
      { fleet.get vehicle with energy := (fleet.get vehicle).energy + added })
    (hothers : ∀ e ∈ line, after.get e.2 = fleet.get e.2)
    (listed : frame.ListsOnly id (fleet.get vehicle)
      (max (min allowed grid) minimumCharge, (fleet.get vehicle).energy + added)) :
    ∃ sessions', InTurn grid d fleet fleet' ((id, vehicle) :: line) sessions'
      (frame :: frames) := by
  cases h with
  | session made shown nobody rest =>
    rw [hafter] at made shown
    exact ⟨_, .session (.charge hbelow hallowed hadded made) (.cons listed shown) nobody
      (rest.congr hothers)⟩

end InTurn

/-! ### One plug -/

/-- What becomes of the occupant of an exclusive charger. -/
theorem Reallocated.visited_exclusive {fleet : Fleet n} {c : Charger n} {vs : List (Visit n)}
    (h : Reallocated fleet c vs) (hi : c.toInstallation = ⟨grid, .exclusive⟩) :
    Visited (flatVisit fleet grid) () c.occupants vs () := by
  have hgrid : c.grid = grid := congrArg Installation.grid hi
  have hexclusive : c.strategy = .exclusive := congrArg Installation.strategy hi
  cases h with
  | flat hoffer hvisited =>
    rw [Charger.flatOffer, hexclusive] at hoffer
    cases hoffer
    exact hgrid ▸ hvisited
  | granular hstrategy _ _ _ =>
    rw [hexclusive] at hstrategy
    cases hstrategy

namespace Simulation

/-- There is a single charger, an exclusive one, with at most one occupant. -/
def HasOnePlug (grid : Power) (s : Simulation n) : Prop :=
  ∃ c, s.chargers = [c] ∧ c.toInstallation = ⟨grid, .exclusive⟩ ∧ c.occupants.length ≤ 1

/-- Those plugged in and then those in the line. -/
def lineUp (s : Simulation n) : List (ℤ × Fin n) :=
  entries s.chargers ++ s.queue.map Ticket.entry

theorem lineUp_eq {s : Simulation n} {c : Charger n} (h : s.chargers = [c]) :
    s.lineUp = c.occupants.map Occupant.entry ++ s.queue.map Ticket.entry := by
  rw [lineUp, h, entries_cons]
  exact congrArg (· ++ s.queue.map Ticket.entry) (List.append_nil _)

/-- What a step of a simulation with one plug does with the first of the line-up. -/
inductive Turn (grid : Power) (s : Simulation n) (id : ℤ) (vehicle : Fin n)
    (line : List (ℤ × Fin n)) (frame : Frame) (t : Simulation n) : Prop
  /-- It has finished and leaves. -/
  | leaves (hfinished : (s.fleet.get vehicle).isFinished = true) (hfleet : t.fleet = s.fleet)
      (hline : t.lineUp = line) (nobody : frame.vehicles = [])
  /-- It takes a charge and stays. -/
  | charges {request : Power} {added : Energy}
      (hrequest : (s.fleet.get vehicle).request? grid = .ok (some request))
      (hadded : request.over? s.stepDuration.toDuration = .ok added)
      (hfleet : t.fleet = s.fleet.set vehicle
        { s.fleet.get vehicle with energy := (s.fleet.get vehicle).energy + added } vehicle.isLt)
      (hline : t.lineUp = (id, vehicle) :: line)
      (listed : frame.ListsOnly id (s.fleet.get vehicle)
        (request, (s.fleet.get vehicle).energy + added))

namespace Stepped

variable {s t : Simulation n} {filled : List (Charger n)} {delivered : Energy} {frame : Frame}

/-- After admission the first of the line-up is plugged in, unless nobody is left. -/
theorem exists_first (h : s.Stepped filled delivered frame t) (hs : s.HasOnePlug grid)
    (hdone : s.isDone = false) :
    ∃ c o, filled = [c] ∧ c.toInstallation = ⟨grid, .exclusive⟩ ∧ c.occupants = [o] ∧
      s.lineUp = o.entry :: t.queue.map Ticket.entry := by
  obtain ⟨c₀, hchargers, hi, hone⟩ := hs
  have hadmission := h.admission
  rw [hchargers] at hadmission
  obtain ⟨c, admitted, hfilled, hqueue, hplugged, hfull⟩ := hadmission.exists_singleton
  have hplugs : c₀.strategy.plugs = 1 :=
    congrArg Strategy.plugs (congrArg Installation.strategy hi)
  have hlength := Charger.length_le_of_plugInAll? hplugged (by rw [hplugs]; exact hone)
  obtain rfl := Charger.eq_receive_of_plugInAll? hplugged
  have hplugs' : (c₀.receive admitted).strategy.plugs = 1 := hplugs
  rw [hplugs'] at hlength
  have hline : s.lineUp =
      (c₀.receive admitted).occupants.map Occupant.entry ++ t.queue.map Ticket.entry := by
    rw [lineUp_eq hchargers, hqueue, Charger.entries_receive, List.map_append, List.append_assoc]
  cases hoccupants : (c₀.receive admitted).occupants with
  | nil =>
    -- the plug is free, so nobody is left in the line, and nobody was there before
    have hfree : (c₀.receive admitted).hasFreePlug = true := by
      rw [Charger.hasFreePlug, hoccupants, hplugs', decide_eq_true_eq]
      exact Int.one_pos
    have hrest : t.queue = [] := hfull.resolve_right (Bool.not_eq_false _ ▸ hfree)
    have hidle : c₀.occupants = [] ∧ admitted = [] := by
      simpa [Charger.receive] using hoccupants
    have hdone' : s.isDone = true := by
      rw [isDone_iff, hqueue, hidle.2, hrest, hchargers]
      exact ⟨rfl, List.forall_mem_singleton.mpr hidle.1⟩
    rw [hdone'] at hdone
    cases hdone
  | cons o others =>
    rw [hoccupants, List.length_cons] at hlength
    obtain rfl : others = [] := List.length_eq_zero_iff.mp (by omega)
    rw [hoccupants] at hline
    exact ⟨_, o, hfilled, hi, hoccupants, hline⟩

/-- **One step of one plug**: the first of the line-up leaves if it has finished, and otherwise
takes a charge. -/
theorem turn (h : s.Stepped filled delivered frame t) (hs : s.HasOnePlug grid)
    (hdone : s.isDone = false) :
    t.HasOnePlug grid ∧ ∃ id vehicle line, s.lineUp = (id, vehicle) :: line ∧
      Turn grid s id vehicle line frame t := by
  obtain ⟨c, o, rfl, hi, hoccupants, hline⟩ := h.exists_first hs hdone
  obtain ⟨c', hc', hchargers⟩ : ∃ c', c.ReallocatesTo s.fleet c' ∧ t.chargers = [c'] := by
    have hreallocated := h.reallocation
    rw [List.forall₂_cons_left_iff] at hreallocated
    obtain ⟨c', rest, hc', hrest, hchargers⟩ := hreallocated
    rw [List.forall₂_nil_left_iff.mp hrest] at hchargers
    exact ⟨c', hc', hchargers⟩
  obtain ⟨vs, hvs, rfl⟩ := hc'
  have hvisited := hvs.visited_exclusive hi
  rw [hoccupants] at hvisited
  obtain ⟨v, rfl, hvisit⟩ := hvisited.exists_singleton
  have hcharged := h.charged
  have hframes := h.frames_occupants
  rw [hchargers, List.flatMap_singleton] at hcharged hframes
  have hnow : t.lineUp = (staying [v]).map Occupant.entry ++ t.queue.map Ticket.entry :=
    lineUp_eq hchargers
  refine ⟨⟨_, hchargers, hi, ?_⟩, o.id, o.vehicle, _, hline, ?_⟩
  · have hlength := length_staying_le (hvisited.forall₂ fun _ _ _ _ => of_flatVisit)
    rwa [List.length_singleton] at hlength
  · obtain ⟨hfinished, rfl⟩ | ⟨request, hrequest, rfl⟩ := flatVisit_eq_ok_iff.mp hvisit
    · -- nobody is left to be charged and listed
      have hfleet : t.fleet = s.fleet := charged_nil_iff.mp hcharged
      exact .leaves hfinished hfleet hnow (List.forall₂_nil_left_iff.mp hframes)
    · obtain ⟨added, hadded, hfleet⟩ := hcharged.exists_singleton
      obtain ⟨entry, others, hentry, hothers, hvehicles⟩ := List.forall₂_cons_left_iff.mp hframes
      obtain ⟨soc, hsoc, rfl⟩ := Occupant.frame?_eq_ok_iff.mp hentry
      rw [List.forall₂_nil_left_iff.mp hothers] at hvehicles
      refine .charges hrequest hadded hfleet hnow ⟨soc, ?_, hvehicles⟩
      -- the state of charge shown is that of the energy stored after the charge
      have hafter : Occupant.vehicleIn { o with allocated := request } t.fleet = _ :=
        hfleet ▸ get_set_self s.fleet o.vehicle _
      rw [hafter] at hsoc
      exact hsoc

end Stepped

/-- **A run with one plug** goes through the sessions of the line-up in turn, and leaves all other
vehicles as they are. -/
theorem RunsTo.inTurn {s t : Simulation n} {frames : List Frame} (h : RunsTo s frames t)
    (hs : s.HasOnePlug grid) (hdistinct : (s.lineUp.map Prod.snd).Nodup)
    (hnumber : ∀ e ∈ s.lineUp, (s.fleet.get e.2).unplugAt.wattHours ≠ .nan) :
    (∃ sessions,
      InTurn grid s.stepDuration.toDuration s.fleet t.fleet s.lineUp sessions frames) ∧
      ∀ w ∉ s.lineUp.map Prod.snd, t.fleet.get w = s.fleet.get w := by
  induction h with
  | @done s hdone =>
    obtain ⟨c, hchargers, -, -⟩ := hs
    obtain ⟨hqueue, hidle⟩ := isDone_iff.mp hdone
    have hnobody : s.lineUp = [] := by
      rw [lineUp_eq hchargers, hqueue, hidle c (hchargers ▸ List.mem_singleton_self c)]
      rfl
    rw [hnobody]
    exact ⟨⟨[], .done⟩, fun _ _ => rfl⟩
  | @next s t frame frames hdone head _ ih =>
    obtain ⟨filled, delivered, hstepped⟩ := stepped_of_step head
    -- whoever is first either leaves, which ends its session, or is charged once more
    obtain ⟨hs', id, vehicle, line, hline, hturn⟩ := hstepped.turn hs hdone
    rw [hline, List.map_cons, List.nodup_cons] at hdistinct
    rw [hline, List.forall_mem_cons] at hnumber
    rw [hline]
    rw [hstepped.stepDuration_eq] at ih
    cases hturn with
    | leaves hfinished hfleet hrest nobody =>
      -- the vehicle is let go of without being charged, and the next one follows
      rw [hrest, hfleet] at ih
      obtain ⟨⟨sessions, hsessions⟩, hothers⟩ := ih hs' hdistinct.2 hnumber.2
      have hlast := hothers vehicle hdistinct.1
      refine ⟨⟨_, hsessions.leave hfinished hlast nobody⟩, fun w hw => ?_⟩
      rw [List.map_cons, List.mem_cons, not_or] at hw
      exact hothers w hw.2
    | @charges _ added hrequest hadded hfleet hrest listed =>
      -- it is charged, and stays first in line with more energy than before
      obtain ⟨hunfinished, allowed, hallowed, rfl⟩ := Vehicle.request?_eq_ok_some_iff.mp hrequest
      obtain ⟨soc, hsoc, hpower⟩ := hallowed
      have hbelow := Vehicle.lt_unplugAt hnumber.1 hsoc hunfinished
      have hself : s.step.simulation.fleet.get vehicle =
          { s.fleet.get vehicle with energy := (s.fleet.get vehicle).energy + added } :=
        hfleet ▸ get_set_self s.fleet vehicle _
      have hothers : ∀ w, vehicle ≠ w → s.step.simulation.fleet.get w = s.fleet.get w :=
        fun w hw => hfleet ▸ get_set_of_ne hw s.fleet _
      have hne : ∀ e ∈ line, vehicle ≠ e.2 := by
        intro e he heq
        exact hdistinct.1 (List.mem_map.mpr ⟨e, he, heq.symm⟩)
      have hnumber' : ∀ e ∈ (id, vehicle) :: line,
          (s.step.simulation.fleet.get e.2).unplugAt.wattHours ≠ .nan := by
        refine List.forall_mem_cons.mpr ⟨?_, fun e he => ?_⟩
        · rw [hself]
          exact hnumber.1
        · rw [hothers e.2 (hne e he)]
          exact hnumber.2 e he
      rw [hrest] at ih
      obtain ⟨⟨sessions, hsessions⟩, hleft⟩ := ih hs' (List.nodup_cons.mpr hdistinct) hnumber'
      constructor
      · exact hsessions.charge hbelow ⟨soc, hsoc, hpower⟩ hadded hself
          (fun e he => hothers e.2 (hne e he)) listed
      · intro w hw
        rw [hleft w hw]
        rw [List.map_cons, List.mem_cons, not_or] at hw
        exact hothers w (Ne.symm hw.1)

/-! ### From an idle charger on -/

/-- **An exclusive charger serves its line session by session.**  If distinct vehicles, whose
thresholds are numbers, wait at an idle exclusive charger and the run returns, then its frames are
those of the sessions of the vehicles in turn, numbered from zero on: for each vehicle the frames of
its charges, which list it by itself, and one frame that lists nobody.  In the end each vehicle is
what its session makes of it. -/
theorem exclusive_in_turn {fleet : Fleet n} {stepDuration : StepDuration} {vehicles : List (Fin n)}
    {frames : List Frame} (hdistinct : vehicles.Nodup)
    (hnumber : ∀ v ∈ vehicles, (fleet.get v).unplugAt.wattHours ≠ .nan) :
    let s := (create fleet [⟨grid, .exclusive⟩] stepDuration).enqueueAll vehicles
    s.run.result = .ok frames →
      ∃ sessions, InTurn grid stepDuration.toDuration fleet s.run.simulation.fleet
          (vehicles.mapIdx fun i v => ((i : ℤ), v)) sessions frames ∧
        frames.length = (sessions.map fun charges => charges.length + 1).sum := by
  intro s hrun
  obtain ⟨hregistry, hqueue, hfleet, hchargers, hduration⟩ :=
    enqueueAll_spec (create fleet [⟨grid, .exclusive⟩] stepDuration) vehicles
  have hnobody : entries s.chargers = [] := by
    rw [hchargers]
    rfl
  have hline : s.lineUp = vehicles.mapIdx fun i v => ((i : ℤ), v) := by
    rw [lineUp, hnobody, queue_enqueueAll, List.nil_append, List.mapIdx_eq_zipIdx_map,
      List.mapIdx_eq_zipIdx_map]
    simp [create, Ticket.entry]
  have hplaces : s.lineUp.map Prod.snd = vehicles := by
    rw [lineUp, hnobody, List.nil_append, List.map_map]
    exact hqueue
  have hs : s.HasOnePlug grid := ⟨_, hchargers, rfl, Nat.zero_le _⟩
  have hnumber : ∀ e ∈ s.lineUp, (s.fleet.get e.2).unplugAt.wattHours ≠ .nan := by
    intro e he
    rw [hfleet]
    exact hnumber e.2 (hplaces ▸ List.mem_map_of_mem he)
  rcases run_eq_ok hrun with ⟨hvalid, rfl, -⟩ | hruns
  · -- a simulation with a charger is not valid only if nobody joined its line
    have hempty : vehicles = [] := by
      rw [isValid, hchargers, hregistry] at hvalid
      simpa [create] using hvalid
    rw [hempty]
    exact ⟨[], .done, rfl⟩
  · obtain ⟨⟨sessions, hsessions⟩, -⟩ := hruns.inTurn hs (hplaces.symm ▸ hdistinct) hnumber
    rw [hline, hfleet, hduration] at hsessions
    exact ⟨sessions, hsessions, hsessions.length_eq⟩

/-- Three sample vehicles in the line of a single plug with 11 kW, half an hour a step: the second
has what it comes for when it arrives, and the third is 11 kWh short of it. -/
def sampleSessions : Simulation 3 :=
  (create #v[.sample, { Vehicle.sample with energy := ⟨21000⟩ },
    { Vehicle.sample with energy := ⟨10000⟩ }] [⟨⟨11000⟩, .exclusive⟩] halfHour).enqueueAll
      (List.finRange 3)

/-- The first takes one charge, the second none, and the third two. -/
theorem sampleSessions_in_turn :
    ∃ frames, sampleSessions.run.result = .ok frames ∧
      (frames.map fun f => f.vehicles.map VehicleFrame.vehicle) = [[0], [], [], [2], [2], []] ∧
      ∃ sessions, InTurn ⟨11000⟩ halfHour.toDuration sampleSessions.fleet
        sampleSessions.run.simulation.fleet [(0, 0), (1, 1), (2, 2)] sessions frames := by
  have hlisted : (sampleSessions.run.result.map fun frames =>
      frames.map fun f => f.vehicles.map VehicleFrame.vehicle) =
        .ok [[0], [], [], [2], [2], []] := by
    decide +kernel
  cases hresult : sampleSessions.run.result with
  | error e => rw [hresult] at hlisted; cases hlisted
  | ok frames =>
    rw [hresult] at hlisted
    have hnumber : ∀ v ∈ List.finRange 3,
        (sampleSessions.fleet.get v).unplugAt.wattHours ≠ .nan := by
      decide +kernel
    obtain ⟨sessions, hsessions, -⟩ :=
      exclusive_in_turn (List.nodup_finRange 3) hnumber hresult
    exact ⟨frames, rfl, Except.ok.inj hlisted, sessions, hsessions⟩

end Simulation

end ChargingSite

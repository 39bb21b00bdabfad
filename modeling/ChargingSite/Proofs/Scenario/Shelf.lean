import ChargingSite.Proofs.Error
import ChargingSite.Proofs.Report.Names
import ChargingSite.Site

/-!
# The directory and the shelf of a site

A site looks up catalog entries in a directory and keeps the models that it has made of them on a
shelf.  Where catalog names are unique, the directory answers what a search of the catalog finds
(`SpecDirectory.spec?_ofCatalog`).  The shelf always holds one model for each name that was asked
for (`ModelShelf.Holds`): a request adds its name (`ModelShelf.Holds.fetch`), so that after all
requests every vehicle has its model in the place of its name (`ModelShelf.Holds.vehicles`).
-/

namespace ChargingSite

/-! ### The directory -/

namespace SpecDirectory

variable {catalog : List VehicleSpec} {name : String}

theorem ofCatalog_concat (catalog : List VehicleSpec) (spec : VehicleSpec) :
    ofCatalog (catalog ++ [spec]) = (spec.name, spec) :: ofCatalog catalog := by
  rw [ofCatalog, List.foldl_concat, ofCatalog]

/-- **A directory of unique names** answers what a search of the catalog finds. -/
theorem spec?_ofCatalog (h : (catalog.map VehicleSpec.name).Nodup) :
    (ofCatalog catalog).spec? name = lookUpSpec catalog name := by
  have hlookup : (ofCatalog catalog).lookup name =
      catalog.find? fun spec => spec.name = name := by
    induction catalog using List.reverseRecOn with
    | nil => rfl
    | append_singleton catalog spec ih =>
      rw [List.map_append, List.nodup_append] at h
      obtain ⟨hnodup, -, hdisjoint⟩ := h
      rw [ofCatalog_concat, List.lookup_cons, List.find?_append, ← ih hnodup]
      by_cases hname : spec.name = name
      · -- the entries before it have other names
        have hnone : (ofCatalog catalog).lookup name = none := by
          rw [ih hnodup, List.find?_eq_none]
          intro other hother
          have := hdisjoint other.name (List.mem_map_of_mem hother) spec.name (by simp)
          simpa [hname] using this
        simp [hname, hnone]
      · have hne : (name == spec.name) = false := beq_false_of_ne (Ne.symm hname)
        simp [hname, hne]
  cases hfind : catalog.find? fun spec => spec.name = name with
  | none => simp only [spec?, lookUpSpec, hlookup, hfind]
  | some spec => simp only [spec?, lookUpSpec, hlookup, hfind]

/-- Entries of other names can be left out. -/
theorem spec?_ofCatalog_filter {p : VehicleSpec → Bool}
    (hp : ∀ spec, spec.name = name → p spec = true) :
    (ofCatalog (catalog.filter p)).spec? name = (ofCatalog catalog).spec? name := by
  have hlookup : (ofCatalog (catalog.filter p)).lookup name = (ofCatalog catalog).lookup name := by
    -- a look-up prefers the last entry, so the induction goes from the right
    induction catalog using List.reverseRecOn with
    | nil => rfl
    | append_singleton catalog spec ih =>
      rw [List.filter_append, ofCatalog_concat, List.lookup_cons]
      by_cases hspec : p spec = true
      · -- an entry that is kept is found, or is passed over, in both directories
        rw [List.filter_cons_of_pos hspec, List.filter_nil, ofCatalog_concat, List.lookup_cons, ih]
      · -- an entry that is left out has another name
        have hne : (name == spec.name) = false :=
          beq_false_of_ne fun heq => hspec (hp spec heq.symm)
        rw [List.filter_cons_of_neg hspec, List.filter_nil, List.append_nil, ih, hne]
  rw [spec?, spec?, hlookup]

end SpecDirectory

/-! ### The shelf -/

/-- A model with the values of a catalog entry. -/
structure VehicleSpec.Describes (spec : VehicleSpec) (m : VehicleModel) : Prop where
  name_eq : m.name = spec.name
  capacity_eq : m.capacity = .ofKilowattHours spec.batteryCapacityKwh
  curve_eq : ChargeCurve.ofPairs? spec.chargeCurve = .ok m.curve
  epaMiles_eq : m.epaMiles = spec.epaMiles

theorem VehicleModel.describes_of_ofSpec? {spec : VehicleSpec} {m : VehicleModel}
    (h : ofSpec? spec = .ok m) : spec.Describes m := by
  simp only [ofSpec?, bind_eq_ok_iff] at h
  obtain ⟨curve, hcurve, hcreate⟩ := h
  unfold create? at hcreate
  split_ifs at hcreate
  cases hcreate
  exact ⟨rfl, rfl, hcurve, rfl⟩

namespace ModelShelf

variable {directory : SpecDirectory} {names : List String} {name : String} {model : VehicleModel}
  {place : ℕ} {shelf shelf' : ModelShelf}

/-- The shelf after models were asked for by the given names: there is one for each name, in the
order in which the names came up first. -/
structure Holds (shelf : ModelShelf) (directory : SpecDirectory) (names : List String) : Prop where
  names_eq : shelf.map Prod.fst = names.eraseDups
  built : ∀ entry ∈ shelf, ∃ spec, directory.spec? entry.1 = .ok spec ∧
    VehicleModel.ofSpec? spec = .ok entry.2

/-- A name has one place. -/
theorem Holds.place_eq_iff (h : shelf.Holds directory names) {place' : ℕ} {name' : String}
    {model' : VehicleModel} (hplace : shelf[place]? = some (name, model))
    (hplace' : shelf[place']? = some (name', model')) : place = place' ↔ name = name' := by
  constructor
  · -- one place has one entry
    rintro rfl
    rw [hplace] at hplace'
    cases hplace'
    rfl
  · -- the shelf has no name twice, so one name has one place
    rintro rfl
    have hnodup : (shelf.map Prod.fst).Nodup := h.names_eq ▸ nodup_eraseDups names
    have hname : (shelf.map Prod.fst)[place]? = some name := by
      rw [List.getElem?_map, hplace, Option.map_some]
    have hname' : (shelf.map Prod.fst)[place']? = some name := by
      rw [List.getElem?_map, hplace', Option.map_some]
    obtain ⟨hi, -⟩ := List.getElem?_eq_some_iff.mp hname
    exact (List.getElem?_inj hi hnodup).mp (hname.trans hname'.symm)

theorem holds_nil (directory : SpecDirectory) : Holds [] directory [] :=
  ⟨rfl, fun _ h => absurd h List.not_mem_nil⟩

/-- A search of the shelf finds a model in its place, or there is none of the name. -/
theorem getElem?_of_find? {stored : String}
    (h : (shelf.zipIdx.find? fun entry => entry.1.1 = name) = some ((stored, model), place)) :
    shelf[place]? = some (name, model) := by
  have hname : stored = name := by simpa using List.find?_some h
  have hentry := List.mem_zipIdx_iff_getElem?.mp (List.mem_of_find?_eq_some h)
  rwa [hname] at hentry

theorem not_mem_of_find? (h : (shelf.zipIdx.find? fun entry => entry.1.1 = name) = none) :
    name ∉ shelf.map Prod.fst := by
  intro hmem
  obtain ⟨entry, hentry, hname⟩ := List.mem_map.mp hmem
  obtain ⟨i, hi⟩ := List.getElem?_of_mem hentry
  have := List.find?_eq_none.mp h (entry, i) (List.mem_zipIdx_iff_getElem?.mpr hi)
  simp [hname] at this

theorem Holds.mem_names_iff (h : shelf.Holds directory names) :
    name ∈ shelf.map Prod.fst ↔ name ∈ names := by
  rw [h.names_eq, List.mem_eraseDups]

/-- **Asking for a model** adds its name to those that were asked for, and leaves the models where
they are. -/
theorem Holds.fetch (h : shelf.Holds directory names)
    (hfetch : shelf.fetch? directory name = .ok (model, place, shelf')) :
    shelf'.Holds directory (names ++ [name]) ∧ shelf <+: shelf' ∧
      shelf'[place]? = some (name, model) := by
  unfold fetch? at hfetch
  split at hfetch
  · next stored model' place' hfind =>
    -- the name is on the shelf, which stays as it is
    cases hfetch
    have hplace := getElem?_of_find? hfind
    have hused : name ∈ names :=
      h.mem_names_iff.mp (List.mem_map.mpr ⟨_, List.mem_of_getElem? hplace, rfl⟩)
    refine ⟨⟨?_, h.built⟩, List.prefix_rfl, hplace⟩
    rw [eraseDups_concat, if_pos hused, h.names_eq]
  · next hfind =>
    -- the name is new, and its model is put at the end
    simp only [bind_eq_ok_iff, pure_eq_ok_iff] at hfetch
    obtain ⟨spec, hspec, model', hmodel, heq⟩ := hfetch
    cases heq
    have hnew : name ∉ names := mt h.mem_names_iff.mpr (not_mem_of_find? hfind)
    refine ⟨⟨?_, ?_⟩, List.prefix_append _ _, by simp⟩
    · rw [eraseDups_concat, if_neg hnew, List.map_append, h.names_eq]
      rfl
    · -- the entries that were there have been built before
      intro entry hentry
      rcases List.mem_append.mp hentry with hentry | hentry
      · exact h.built entry hentry
      · cases List.mem_singleton.mp hentry
        exact ⟨spec, hspec, hmodel⟩

end ModelShelf

/-! ### Vehicles on request -/

/-- A vehicle with the energies at the two states of charge of a request. -/
structure VehicleRequest.SetsEnergies (request : VehicleRequest) (v : Vehicle) : Prop where
  exists_start : ∃ start, Percentage.ofPercent? request.startSocPct = .ok start ∧
    v.energy = v.model.energyAt start
  exists_unplug : ∃ unplug, Percentage.ofPercent? request.unplugSocPct = .ok unplug ∧
    v.unplugAt = v.model.energyAt unplug

/-- A vehicle on request, with the place of its model on a shelf. -/
structure VehicleRequest.Yields (request : VehicleRequest) (shelf : ModelShelf)
    (v : Vehicle × ℕ) : Prop extends VehicleRequest.SetsEnergies request v.1 where
  model_eq : shelf[v.2]? = some (request.spec, v.1.model)

/-- **All requests one after the other**: the models that they share stay where they are. -/
theorem ModelShelf.Holds.vehicles {directory : SpecDirectory} {requests : List VehicleRequest}
    {names : List String} {shelf shelf' : ModelShelf} {vehicles : List (Vehicle × ℕ)}
    (h : shelf.Holds directory names)
    (hvehicles : vehiclesOf? directory requests shelf = .ok (vehicles, shelf')) :
    shelf'.Holds directory (names ++ requests.map VehicleRequest.spec) ∧ shelf <+: shelf' ∧
      List.Forall₂ (fun request v => request.Yields shelf' v) requests vehicles := by
  induction requests generalizing names shelf vehicles with
  | nil =>
    cases hvehicles
    refine ⟨?_, List.prefix_rfl, .nil⟩
    rwa [List.map_nil, List.append_nil]
  | cons request rest ih =>
    simp only [vehiclesOf?, bind_eq_ok_iff, pure_eq_ok_iff, liftNumber_eq_ok_iff] at hvehicles
    obtain ⟨⟨model, place, between⟩, hfetch, start, hstart, unplug, hunplug, ⟨later, after⟩, hlater,
      heq⟩ := hvehicles
    cases heq
    obtain ⟨hbetween, hprefix, hplace⟩ := h.fetch hfetch
    obtain ⟨hholds, hprefix', hyields⟩ := ih hbetween hlater
    refine ⟨?_, hprefix.trans hprefix', .cons
      ⟨⟨⟨start, hstart, rfl⟩, ⟨unplug, hunplug, rfl⟩⟩, ?_⟩ hyields⟩
    · -- the names so far are those before and the first one of these
      rwa [List.map_cons, List.append_cons]
    · -- later vehicles put their models behind this one
      obtain ⟨hi, hmodel⟩ := List.getElem?_eq_some_iff.mp hplace
      exact (List.prefix_iff_getElem?.mp hprefix' place hi).trans (congrArg some hmodel)

end ChargingSite

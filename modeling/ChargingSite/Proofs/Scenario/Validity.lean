import ChargingSite.Proofs.Document.Spelling
import ChargingSite.Proofs.Scenario.Verdict
import ChargingSite.Scenario.Written
import Mathlib.Data.List.Chain

/-!
# Valid configurations

What the fields of a configuration may be, and what they must satisfy together, is a property of
the configuration itself: `IsValid`, for each sort of record.  The readers answer the valid values
and no others (`Accepts`): what a reader answers is valid, whether it was written so, converted or a
default, and what is valid is read back from its own document.  A reader that is made of others has
this property if they have it.

So validation is idempotent (`validation_rereads`): a configuration that has been found valid, and
is written out with all its fields, as numbers and with nothing else, is found valid again and is
the same.  No number is converted to one that its own field refuses, no default breaks a rule, and
no rule about a record as a whole sees anything else the second time.
-/

namespace ChargingSite

variable {α : Type} {spell : Document → Document} {read : Document → Verdict α}
  {write : α → Document} {P : α → Prop}

/-- The answers of `read` are the values that satisfy `P`, and each of them is the answer for the
document that `write` makes of it, in another spelling. -/
structure Accepts (spell : Document → Document) (read : Document → Verdict α)
    (write : α → Document) (P : α → Prop) : Prop where
  sound : ∀ {d a}, read d = .valid a → P a
  complete : ∀ {a}, P a → read (spell (write a)) = .valid a

/-! ### Values -/

theorem accepts_readText (h : IsSpelling spell) :
    Accepts spell readText .text fun _ => True where
  sound _ := trivial
  complete _ := by rw [h.text, readText]

theorem accepts_readNumber (h : IsSpelling spell) :
    Accepts spell readNumber .decimal fun _ => True where
  sound _ := trivial
  complete _ := h.readNumber_decimal _

theorem accepts_readInteger (h : IsSpelling spell) :
    Accepts spell readInteger .integer fun _ => True where
  sound _ := trivial
  complete _ := by rw [h.integer, readInteger]

/-- A bound is checked on the number that was read. -/
theorem Accepts.require (hread : Accepts spell read write P) (holds : α → Bool)
    (kind : FaultKind) :
    Accepts spell (fun d => (read d).require holds kind) write
      fun a => P a ∧ holds a = true where
  sound hvalid := by
    obtain ⟨hvalid, hholds⟩ := Verdict.require_eq_valid_iff.mp hvalid
    exact ⟨hread.sound hvalid, hholds⟩
  complete ha := Verdict.require_eq_valid_iff.mpr ⟨hread.complete ha.1, ha.2⟩

theorem Accepts.of_iff {Q : α → Prop} (hread : Accepts spell read write P)
    (h : ∀ a, P a ↔ Q a) : Accepts spell read write Q where
  sound hvalid := (h _).mp (hread.sound hvalid)
  complete ha := hread.complete ((h _).mpr ha)

theorem accepts_readPositive (h : IsSpelling spell) :
    Accepts spell readPositive .decimal fun x => Binary64.lt 0 x = true :=
  ((accepts_readNumber h).require _ _).of_iff fun _ => by rw [true_and]

theorem accepts_readNonNegative (h : IsSpelling spell) :
    Accepts spell readNonNegative .decimal fun x => Binary64.le 0 x = true :=
  ((accepts_readNumber h).require _ _).of_iff fun _ => by rw [true_and]

theorem accepts_readPercent (h : IsSpelling spell) :
    Accepts spell readPercent .decimal fun x => x.le 100 = true ∧ Binary64.le 0 x = true :=
  (((accepts_readNumber h).require _ _).require _ _).of_iff fun _ => by rw [true_and]

theorem accepts_readCount (h : IsSpelling spell) :
    Accepts spell readCount .integer fun n => 1 ≤ n :=
  ((accepts_readInteger h).require _ _).of_iff fun _ => by rw [true_and, decide_eq_true_iff]

/-! ### Lists -/

theorem Accepts.list (h : IsSpelling spell) (hread : Accepts spell read write P) :
    Accepts spell (readList read) (fun as => .list (as.map write)) fun as => ∀ a ∈ as, P a where
  sound {d as} hvalid := by
    cases d with
    | list items =>
      intro a ha
      obtain ⟨item, -, hitem⟩ := exists_of_mem_readItems hvalid ha
      exact hread.sound hitem
    | _ => cases hvalid
  complete {as} has := by
    -- the positions of the items show in the paths of faults only, and there are none
    have hitems : ∀ position, readItems read position ((as.map write).map spell) = .valid as := by
      induction as with
      | nil => exact fun _ => rfl
      | cons a as ih =>
        intro position
        obtain ⟨hfirst, hrest⟩ := List.forall_mem_cons.mp has
        rw [List.map_cons, List.map_cons, readItems, hread.complete hfirst, ih hrest]
        rfl
    rw [h.list]
    exact hitems 0

/-- The document of a sample. -/
def writtenSample (sample : Binary64 × Binary64) : Document :=
  .list [.decimal sample.1, .decimal sample.2]

theorem readSample_written (h : IsSpelling spell) (sample : Binary64 × Binary64) :
    readSample (spell (writtenSample sample)) = .valid sample := by
  rw [writtenSample, h.list, List.map_cons, List.map_cons, List.map_nil, readSample,
    h.readNumber_decimal, h.readNumber_decimal]
  rfl

theorem sortSamples_written (h : IsSpelling spell) (samples : List (Binary64 × Binary64))
    (position : ℕ) :
    sortSamples position ((samples.map writtenSample).map spell) = (samples, []) := by
  induction samples generalizing position with
  | nil => rfl
  | cons sample samples ih =>
    rw [List.map_cons, List.map_cons, sortSamples, ih, readSample_written h]
    rfl

/-- Any two samples make a curve; the rules about it concern the whole entry. -/
theorem accepts_readCurve (h : IsSpelling spell) :
    Accepts spell readCurve (fun samples => .list (samples.map writtenSample))
      fun samples => 2 ≤ samples.length where
  sound := two_le_length_of_readCurve
  complete {samples} hlength := by
    rw [h.list]
    simp only [readCurve, sortSamples_written h, if_neg (not_lt.mpr hlength)]
    rfl

/-! ### Fields -/

theorem lookUp_map (fields : List (String × Document)) (name : String) :
    Document.lookUp (fields.map (Prod.map id spell)) name =
      (Document.lookUp fields name).map spell := by
  simp [Document.lookUp, List.find?_map, Function.comp_def, ← List.map_reverse]

section Fields

variable {fields written : List (String × Document)} {name : String} {a default : α}

theorem Accepts.required (hread : Accepts spell read write P)
    (hvalid : readField fields name none read = .valid a) : P a := by
  obtain ⟨d, -, hd⟩ | ⟨-, hnone⟩ := readField_eq_valid_iff.mp hvalid
  · -- the field is there and was read
    exact hread.sound hd
  · -- it is missing, where it must not be
    cases hnone

/-- A default has to be one of the answers, because no reader has seen it. -/
theorem Accepts.defaulted (hread : Accepts spell read write P)
    (hvalid : readField fields name (some default) read = .valid a) (hdefault : P default) :
    P a := by
  obtain ⟨d, -, hd⟩ | ⟨-, hsome⟩ := readField_eq_valid_iff.mp hvalid
  · -- the field is there and was read
    exact hread.sound hd
  · -- it is missing and has its default
    cases hsome
    exact hdefault

theorem Accepts.readField_written (hread : Accepts spell read write P) (ha : P a)
    {default? : Option α} (hwritten : Document.lookUp written name = some (write a)) :
    readField (written.map (Prod.map id spell)) name default? read = .valid a := by
  refine readField_eq_valid_iff.mpr (.inl ⟨spell (write a), ?_, hread.complete ha⟩)
  rw [lookUp_map, hwritten, Option.map_some]

end Fields

/-! ### Vehicles -/

theorem stallsSomewhere_eq_false_iff {xs : List Binary64} :
    stallsSomewhere xs = false ↔ xs.IsChain fun a b => b.le a = false := by
  fun_induction stallsSomewhere xs with
  | case1 a b rest ih => rw [Bool.or_eq_false_iff, ih, List.isChain_cons_cons]
  | case2 xs h =>
    -- fewer than two states of charge are in order
    match xs, h with
    | [], _ => simp
    | [a], _ => simp
    | a :: b :: rest, h => exact absurd rfl (h a b rest)

/-- What validation guarantees of a catalog entry. -/
structure VehicleSpec.ObeysRules (spec : VehicleSpec) : Prop where
  capacity_pos : Binary64.lt 0 spec.batteryCapacityKwh = true
  two_le_length : 2 ≤ spec.chargeCurve.length
  increasing : (spec.chargeCurve.map Prod.fst).IsChain fun a b => b.le a = false
  first_eq_zero : ((spec.chargeCurve.map Prod.fst).headD 0).eq 0 = true
  last_eq_hundred : ((spec.chargeCurve.map Prod.fst).getLastD 0).eq 100 = true
  nonneg : ∀ sample ∈ spec.chargeCurve, sample.2.lt 0 = false

/-- A valid catalog entry: it obeys the rules of a charge curve, and its range is not negative. -/
structure VehicleSpec.IsValid (spec : VehicleSpec) : Prop extends spec.ObeysRules where
  epaMiles_nonneg : Binary64.le 0 spec.epaMiles = true

theorem VehicleSpec.brokenRule?_eq_none_iff {spec : VehicleSpec} :
    spec.brokenRule? = none ↔
      ((spec.chargeCurve.map Prod.fst).IsChain fun a b => b.le a = false) ∧
        ((spec.chargeCurve.map Prod.fst).headD 0).eq 0 = true ∧
        ((spec.chargeCurve.map Prod.fst).getLastD 0).eq 100 = true ∧
        ∀ sample ∈ spec.chargeCurve, sample.2.lt 0 = false := by
  rw [← stallsSomewhere_eq_false_iff]
  unfold brokenRule?
  dsimp only
  split_ifs with hstall hspan hneg
  · -- two samples are not in order
    simp [hstall]
  · -- the ends of the curve are not those of the scale
    simp only [Bool.or_eq_true, Bool.not_eq_true'] at hspan
    grind
  · -- a power is negative
    simp only [List.any_eq_true] at hneg
    grind
  · -- no rule is broken
    simp only [Bool.not_eq_true, Bool.or_eq_false_iff, Bool.not_eq_false'] at hstall hspan
    simp only [List.any_eq_true, not_exists, not_and, Bool.not_eq_true] at hneg
    exact iff_of_true rfl ⟨hstall, hspan.1, hspan.2, hneg⟩

theorem accepts_readVehicleSpec (h : IsSpelling spell) :
    Accepts spell readVehicleSpec VehicleSpec.toDocument VehicleSpec.IsValid where
  sound hvalid := by
    obtain ⟨fields, -, hfields⟩ := readRecord_eq_valid_iff.mp hvalid
    obtain ⟨hmap, hrules⟩ := Verdict.obeying_eq_valid_iff.mp hfields
    obtain ⟨⟨name, capacity, curve, miles⟩, hparts, rfl⟩ := Verdict.map_eq_valid_iff.mp hmap
    simp only [Verdict.both_eq_valid_iff] at hparts
    obtain ⟨-, hcapacity, hcurve, hmiles⟩ := hparts
    obtain ⟨hincreasing, hfirst, hlast, hnonneg⟩ :=
      VehicleSpec.brokenRule?_eq_none_iff.mp (Except.ok.inj hrules)
    exact ⟨⟨(accepts_readPositive h).required hcapacity, (accepts_readCurve h).required hcurve,
      hincreasing, hfirst, hlast, hnonneg⟩,
      (accepts_readNonNegative h).defaulted hmiles (by decide +kernel)⟩
  complete {spec} hspec := by
    have hrules : spec.brokenRule? = none := VehicleSpec.brokenRule?_eq_none_iff.mpr
      ⟨hspec.increasing, hspec.first_eq_zero, hspec.last_eq_hundred, hspec.nonneg⟩
    rw [VehicleSpec.toDocument, h.record]
    refine readRecord_eq_valid_iff.mpr ⟨_, rfl, Verdict.obeying_eq_valid_iff.mpr
      ⟨Verdict.map_eq_valid_iff.mpr ⟨(spec.name, spec.batteryCapacityKwh, spec.chargeCurve,
        spec.epaMiles), ?_, rfl⟩, congrArg Except.ok hrules⟩⟩
    simp only [Verdict.both_eq_valid_iff]
    refine ⟨(accepts_readText h).readField_written trivial ?_,
      (accepts_readPositive h).readField_written hspec.capacity_pos ?_,
      (accepts_readCurve h).readField_written hspec.two_le_length ?_,
      (accepts_readNonNegative h).readField_written hspec.epaMiles_nonneg ?_⟩
    all_goals simp [Document.lookUp, writtenSample]

theorem VehicleSpec.obeysRules_of_readVehicleSpec {d : Document} {spec : VehicleSpec}
    (h : readVehicleSpec d = .valid spec) : spec.ObeysRules :=
  ((accepts_readVehicleSpec isSpelling_id).sound h).toObeysRules

/-- A valid request: both states of charge are percentages, and the vehicle leaves with no less than
it arrives with. -/
structure VehicleRequest.IsValid (request : VehicleRequest) : Prop where
  start_mem : request.startSocPct.le 100 = true ∧ Binary64.le 0 request.startSocPct = true
  unplug_mem : request.unplugSocPct.le 100 = true ∧ Binary64.le 0 request.unplugSocPct = true
  start_le_unplug : request.unplugSocPct.lt request.startSocPct = false

theorem VehicleRequest.brokenRule?_eq_none_iff {request : VehicleRequest} :
    request.brokenRule? = none ↔ request.unplugSocPct.lt request.startSocPct = false := by
  simp [brokenRule?]

theorem accepts_readVehicleRequest (h : IsSpelling spell) :
    Accepts spell readVehicleRequest VehicleRequest.toDocument VehicleRequest.IsValid where
  sound hvalid := by
    obtain ⟨fields, -, hfields⟩ := readRecord_eq_valid_iff.mp hvalid
    obtain ⟨hmap, hrules⟩ := Verdict.obeying_eq_valid_iff.mp hfields
    obtain ⟨⟨spec, start, unplug⟩, hparts, rfl⟩ := Verdict.map_eq_valid_iff.mp hmap
    simp only [Verdict.both_eq_valid_iff] at hparts
    obtain ⟨-, hstart, hunplug⟩ := hparts
    -- a percentage that is not written has a default, which is a percentage as well
    exact ⟨(accepts_readPercent h).defaulted hstart (by decide +kernel),
      (accepts_readPercent h).defaulted hunplug (by decide +kernel),
      VehicleRequest.brokenRule?_eq_none_iff.mp (Except.ok.inj hrules)⟩
  complete {request} hrequest := by
    have hrules := VehicleRequest.brokenRule?_eq_none_iff.mpr hrequest.start_le_unplug
    rw [VehicleRequest.toDocument, h.record]
    refine readRecord_eq_valid_iff.mpr ⟨_, rfl, Verdict.obeying_eq_valid_iff.mpr
      ⟨Verdict.map_eq_valid_iff.mpr ⟨(request.spec, request.startSocPct, request.unplugSocPct), ?_,
        rfl⟩, congrArg Except.ok hrules⟩⟩
    simp only [Verdict.both_eq_valid_iff]
    refine ⟨(accepts_readText h).readField_written trivial ?_,
      (accepts_readPercent h).readField_written hrequest.start_mem ?_,
      (accepts_readPercent h).readField_written hrequest.unplug_mem ?_⟩
    all_goals simp [Document.lookUp]

/-! ### Strategies -/

/-- The bounds and the rule of a strategy.  A strategy of none of the known kinds is not valid. -/
def Strategy.IsValid : Strategy → Prop
  | .exclusive => True
  | .paired plugs | .split plugs => 1 ≤ plugs
  | .granular plugs stepKw capKw =>
    1 ≤ plugs ∧ Binary64.lt 0 stepKw = true ∧ Binary64.lt 0 capKw = true ∧ capKw.lt stepKw = false
  | .custom .. => False

namespace Strategy

/-- The valid strategies of one kind. -/
def IsOfKind (kind : String) (s : Strategy) : Prop :=
  s.IsValid ∧ s.kind = kind

variable {s : Strategy}

theorem isOfKind_exclusive_iff : s.IsOfKind "exclusive" ↔ s = .exclusive := by
  cases s <;> simp [IsOfKind, IsValid, kind]

theorem isOfKind_paired_iff : s.IsOfKind "paired" ↔ ∃ plugs, 1 ≤ plugs ∧ s = .paired plugs := by
  cases s <;> simp [IsOfKind, IsValid, kind]

theorem isOfKind_split_iff : s.IsOfKind "split" ↔ ∃ plugs, 1 ≤ plugs ∧ s = .split plugs := by
  cases s <;> simp [IsOfKind, IsValid, kind]

theorem isOfKind_granular_iff : s.IsOfKind "granular" ↔
    ∃ plugs stepKw capKw, s.IsValid ∧ s = .granular plugs stepKw capKw := by
  cases s <;> simp [IsOfKind, IsValid, kind]

end Strategy

theorem accepts_readWord (h : IsSpelling spell) (word : String) :
    Accepts spell (readWord word) (fun _ => .text word) fun _ => True where
  sound _ := trivial
  complete _ := by rw [h.text, readWord, if_pos rfl]

theorem accepts_readExclusive (h : IsSpelling spell) :
    Accepts spell readExclusive Strategy.toDocument (Strategy.IsOfKind "exclusive") where
  sound hvalid := by
    obtain ⟨fields, -, hfields⟩ := readRecord_eq_valid_iff.mp hvalid
    obtain ⟨-, -, rfl⟩ := Verdict.map_eq_valid_iff.mp hfields
    exact ⟨trivial, rfl⟩
  complete hs := by
    obtain rfl := Strategy.isOfKind_exclusive_iff.mp hs
    rw [Strategy.toDocument, h.record]
    refine readRecord_eq_valid_iff.mpr ⟨_, rfl, Verdict.map_eq_valid_iff.mpr
      ⟨(), (accepts_readWord h "exclusive").readField_written trivial ?_, rfl⟩⟩
    simp [Document.lookUp, Strategy.kind]

/-- The strategies of equal shares differ in their kind only. -/
theorem accepts_equalShares (h : IsSpelling spell) (sort kind : String) {make : ℤ → Strategy}
    (hmake : ∀ plugs, (make plugs).toDocument =
      .record [("kind", .text kind), ("number_of_plugs", .integer plugs)]) :
    Accepts spell
      (readRecord sort fun fields =>
        ((readKind fields kind).both (readField fields "number_of_plugs" (some 2) readCount)).map
          fun ((), plugs) => make plugs)
      Strategy.toDocument fun s => ∃ plugs, 1 ≤ plugs ∧ s = make plugs where
  sound hvalid := by
    obtain ⟨fields, -, hfields⟩ := readRecord_eq_valid_iff.mp hvalid
    obtain ⟨⟨⟨⟩, plugs⟩, hparts, rfl⟩ := Verdict.map_eq_valid_iff.mp hfields
    obtain ⟨-, hplugs⟩ := Verdict.both_eq_valid_iff.mp hparts
    exact ⟨plugs, (accepts_readCount h).defaulted hplugs (by decide), rfl⟩
  complete := by
    rintro _ ⟨plugs, hplugs, rfl⟩
    rw [hmake, h.record]
    refine readRecord_eq_valid_iff.mpr ⟨_, rfl, Verdict.map_eq_valid_iff.mpr
      ⟨((), plugs), Verdict.both_eq_valid_iff.mpr
        ⟨(accepts_readWord h kind).readField_written trivial ?_,
          (accepts_readCount h).readField_written hplugs ?_⟩, rfl⟩⟩
    all_goals simp [Document.lookUp]

theorem accepts_readPaired (h : IsSpelling spell) :
    Accepts spell readPaired Strategy.toDocument (Strategy.IsOfKind "paired") :=
  (accepts_equalShares h "PairedStrategy" "paired" fun _ => rfl).of_iff fun _ =>
    Strategy.isOfKind_paired_iff.symm

theorem accepts_readSplit (h : IsSpelling spell) :
    Accepts spell readSplit Strategy.toDocument (Strategy.IsOfKind "split") :=
  (accepts_equalShares h "SplitStrategy" "split" fun _ => rfl).of_iff fun _ =>
    Strategy.isOfKind_split_iff.symm

theorem Strategy.brokenRule?_granular_eq_none_iff {plugs : ℤ} {stepKw capKw : Binary64} :
    (Strategy.granular plugs stepKw capKw).brokenRule? = none ↔ capKw.lt stepKw = false := by
  simp [brokenRule?]

theorem accepts_readGranular (h : IsSpelling spell) :
    Accepts spell readGranular Strategy.toDocument (Strategy.IsOfKind "granular") where
  sound hvalid := by
    obtain ⟨fields, -, hfields⟩ := readRecord_eq_valid_iff.mp hvalid
    obtain ⟨hmap, hrules⟩ := Verdict.obeying_eq_valid_iff.mp hfields
    obtain ⟨⟨⟨⟩, plugs, step, cap⟩, hparts, rfl⟩ := Verdict.map_eq_valid_iff.mp hmap
    simp only [Verdict.both_eq_valid_iff] at hparts
    obtain ⟨-, hplugs, hstep, hcap⟩ := hparts
    refine ⟨⟨?_, ?_, ?_, ?_⟩, rfl⟩
    · exact (accepts_readCount h).defaulted hplugs (by decide)
    · exact (accepts_readPositive h).defaulted hstep (by decide +kernel)
    · exact (accepts_readPositive h).defaulted hcap (by decide +kernel)
    · exact Strategy.brokenRule?_granular_eq_none_iff.mp (Except.ok.inj hrules)
  complete hs := by
    obtain ⟨plugs, step, cap, hvalid, rfl⟩ := Strategy.isOfKind_granular_iff.mp hs
    obtain ⟨hplugs, hstep, hcap, hrule⟩ := hvalid
    rw [Strategy.toDocument, h.record]
    refine readRecord_eq_valid_iff.mpr ⟨_, rfl, Verdict.obeying_eq_valid_iff.mpr
      ⟨Verdict.map_eq_valid_iff.mpr ⟨((), plugs, step, cap), ?_, rfl⟩,
        congrArg Except.ok (Strategy.brokenRule?_granular_eq_none_iff.mpr hrule)⟩⟩
    simp only [Verdict.both_eq_valid_iff]
    refine ⟨(accepts_readWord h "granular").readField_written trivial ?_,
      (accepts_readCount h).readField_written hplugs ?_,
      (accepts_readPositive h).readField_written hstep ?_,
      (accepts_readPositive h).readField_written hcap ?_⟩
    all_goals simp [Document.lookUp, Strategy.kind]

/-- A strategy that is written shows its kind, which selects the reader of this kind. -/
theorem readStrategy_written (h : IsSpelling spell) {reader : Document → Verdict Strategy}
    {s : Strategy}
    (hselect : ∀ fields, Document.lookUp fields "kind" = some (.text s.kind) →
      readStrategy (.record fields) = (reader (.record fields)).under (.field s.kind))
    (hread : reader (spell s.toDocument) = .valid s) :
    readStrategy (spell s.toDocument) = .valid s := by
  unfold Strategy.toDocument at hread ⊢
  rw [h.record] at hread ⊢
  rw [hselect, Verdict.under_eq_valid_iff]
  · -- the reader of its kind accepts it
    exact hread
  · -- its kind is what the field of this name holds
    rw [lookUp_map]
    cases s <;> simp [Document.lookUp, h.text]

/-- The reader of any strategy leaves the work to a reader of one kind. -/
theorem readStrategy_cases {d : Document} {s : Strategy} (h : readStrategy d = .valid s) :
    readExclusive d = .valid s ∨ readPaired d = .valid s ∨ readSplit d = .valid s ∨
      readGranular d = .valid s := by
  unfold readStrategy at h
  split at h
  · split at h
    -- a record without a kind
    case h_1 => cases h
    case h_2 => exact .inl (Verdict.under_eq_valid_iff.mp h)
    case h_3 => exact .inr (.inl (Verdict.under_eq_valid_iff.mp h))
    case h_4 => exact .inr (.inr (.inl (Verdict.under_eq_valid_iff.mp h)))
    case h_5 => exact .inr (.inr (.inr (Verdict.under_eq_valid_iff.mp h)))
    -- a kind that is not known
    case h_6 => cases h
  · -- a document that is no record
    cases h

/-- **Strategies keep their kind** when any of them is allowed. -/
theorem accepts_readStrategy (h : IsSpelling spell) :
    Accepts spell readStrategy Strategy.toDocument Strategy.IsValid where
  sound hvalid := by
    rcases readStrategy_cases hvalid with hread | hread | hread | hread
    · exact ((accepts_readExclusive h).sound hread).1
    · exact ((accepts_readPaired h).sound hread).1
    · exact ((accepts_readSplit h).sound hread).1
    · exact ((accepts_readGranular h).sound hread).1
  complete {s} hs := by
    -- the kind that is written selects the reader that accepts it
    cases s with
    | exclusive =>
      refine readStrategy_written h (fun fields hkind => ?_)
        ((accepts_readExclusive h).complete ⟨hs, rfl⟩)
      simp only [readStrategy, hkind, Strategy.kind]
    | paired plugs =>
      refine readStrategy_written h (fun fields hkind => ?_)
        ((accepts_readPaired h).complete ⟨hs, rfl⟩)
      simp only [readStrategy, hkind, Strategy.kind]
    | split plugs =>
      refine readStrategy_written h (fun fields hkind => ?_)
        ((accepts_readSplit h).complete ⟨hs, rfl⟩)
      simp only [readStrategy, hkind, Strategy.kind]
    | granular plugs stepKw capKw =>
      refine readStrategy_written h (fun fields hkind => ?_)
        ((accepts_readGranular h).complete ⟨hs, rfl⟩)
      simp only [readStrategy, hkind, Strategy.kind]
    | custom kind plugs shown => cases hs

/-! ### Chargers and scenarios -/

/-- The bound and the rules of a charger. -/
structure ChargerConfig.IsValid (config : ChargerConfig) : Prop where
  grid_pos : Binary64.lt 0 config.gridConnectionKw = true
  strategy : config.strategy.IsValid
  rules : config.brokenRule? = .ok none

theorem accepts_readChargerConfig (h : IsSpelling spell) :
    Accepts spell readChargerConfig ChargerConfig.toDocument ChargerConfig.IsValid where
  sound hvalid := by
    obtain ⟨fields, -, hfields⟩ := readRecord_eq_valid_iff.mp hvalid
    obtain ⟨hmap, hrules⟩ := Verdict.obeying_eq_valid_iff.mp hfields
    obtain ⟨⟨name, grid, strategy⟩, hparts, rfl⟩ := Verdict.map_eq_valid_iff.mp hmap
    simp only [Verdict.both_eq_valid_iff] at hparts
    obtain ⟨-, hgrid, hstrategy⟩ := hparts
    exact ⟨(accepts_readPositive h).defaulted hgrid (by decide +kernel),
      (accepts_readStrategy h).defaulted hstrategy trivial, hrules⟩
  complete {config} hconfig := by
    rw [ChargerConfig.toDocument, h.record]
    refine readRecord_eq_valid_iff.mpr ⟨_, rfl, Verdict.obeying_eq_valid_iff.mpr
      ⟨Verdict.map_eq_valid_iff.mpr ⟨(config.name, config.gridConnectionKw, config.strategy), ?_,
        rfl⟩, hconfig.rules⟩⟩
    simp only [Verdict.both_eq_valid_iff]
    refine ⟨(accepts_readText h).readField_written trivial ?_,
      (accepts_readPositive h).readField_written hconfig.grid_pos ?_,
      (accepts_readStrategy h).readField_written hconfig.strategy ?_⟩
    all_goals simp [Document.lookUp]

/-- Steps take some time. -/
def SimulationConfig.IsValid (config : SimulationConfig) : Prop :=
  Binary64.lt 0 config.stepSeconds = true

theorem SimulationConfig.isValid_default : SimulationConfig.IsValid {} := by
  show Binary64.lt 0 1 = true
  decide +kernel

theorem accepts_readSimulationConfig (h : IsSpelling spell) :
    Accepts spell readSimulationConfig SimulationConfig.toDocument SimulationConfig.IsValid where
  sound hvalid := by
    obtain ⟨fields, -, hfields⟩ := readRecord_eq_valid_iff.mp hvalid
    obtain ⟨seconds, hseconds, rfl⟩ := Verdict.map_eq_valid_iff.mp hfields
    exact (accepts_readPositive h).defaulted hseconds (by decide +kernel)
  complete {config} hconfig := by
    rw [SimulationConfig.toDocument, h.record]
    refine readRecord_eq_valid_iff.mpr ⟨_, rfl, Verdict.map_eq_valid_iff.mpr
      ⟨config.stepSeconds, (accepts_readPositive h).readField_written hconfig ?_, rfl⟩⟩
    simp [Document.lookUp]

/-- The names in a scenario: catalog names are unique, and vehicles use none but these. -/
structure Scenario.NamesResolve (scenario : Scenario) : Prop where
  nodup : (scenario.catalog.map VehicleSpec.name).Nodup
  known : ∀ request ∈ scenario.vehicles, request.spec ∈ scenario.catalog.map VehicleSpec.name

theorem Scenario.mem_unknownNames {scenario : Scenario} {name : String} :
    name ∈ scenario.unknownNames ↔
      name ∈ scenario.vehicles.map VehicleRequest.spec ∧
        name ∉ scenario.catalog.map VehicleSpec.name := by
  simp [unknownNames]

theorem Scenario.brokenRule?_eq_none_iff {scenario : Scenario} :
    scenario.brokenRule? = none ↔ scenario.NamesResolve := by
  have hknown : scenario.unknownNames.isEmpty = true ↔
      ∀ request ∈ scenario.vehicles, request.spec ∈ scenario.catalog.map VehicleSpec.name := by
    -- no name is unknown if each of them is in the catalog
    simp only [List.isEmpty_iff, List.eq_nil_iff_forall_not_mem, mem_unknownNames, not_and, not_not,
      List.forall_mem_map]
  unfold brokenRule?
  split_ifs with hnodup hempty
  · -- no rule is broken
    exact iff_of_true rfl ⟨hnodup, hknown.mp hempty⟩
  · -- a vehicle uses a name that is not in the catalog
    exact iff_of_false nofun fun h => hempty (hknown.mpr h.known)
  · -- two entries have one name
    exact iff_of_false nofun fun h => hnodup h.nodup

/-- A valid scenario: its parts are valid and its names resolve. -/
structure Scenario.IsValid (scenario : Scenario) : Prop where
  catalog : ∀ spec ∈ scenario.catalog, spec.IsValid
  vehicles : ∀ request ∈ scenario.vehicles, request.IsValid
  chargers : ∀ config ∈ scenario.chargers, config.IsValid
  simulation : scenario.simulation.IsValid
  names : scenario.NamesResolve

/-- The built-in catalog obeys the rules of any other catalog. -/
theorem isValid_of_mem_builtInCatalog : ∀ spec ∈ builtInCatalog, spec.IsValid := by
  have hread : readList readVehicleSpec (.list (builtInCatalog.map VehicleSpec.toDocument)) =
      .valid builtInCatalog := by
    decide +kernel
  exact ((accepts_readVehicleSpec isSpelling_id).list isSpelling_id).sound hread

theorem accepts_readScenario (h : IsSpelling spell) :
    Accepts spell readScenario Scenario.toDocument Scenario.IsValid := by
  have hcatalog := (accepts_readVehicleSpec h).list h
  have hvehicles := (accepts_readVehicleRequest h).list h
  have hchargers := (accepts_readChargerConfig h).list h
  have hsimulation := accepts_readSimulationConfig h
  constructor
  case sound =>
    intro d scenario hvalid
    obtain ⟨fields, -, hfields⟩ := readRecord_eq_valid_iff.mp hvalid
    obtain ⟨hmap, hrules⟩ := Verdict.obeying_eq_valid_iff.mp hfields
    obtain ⟨⟨catalog, vehicles, chargers, simulation⟩, hparts, rfl⟩ :=
      Verdict.map_eq_valid_iff.mp hmap
    simp only [Verdict.both_eq_valid_iff] at hparts
    obtain ⟨hreadCatalog, hreadVehicles, hreadChargers, hreadSimulation⟩ := hparts
    exact ⟨hcatalog.defaulted hreadCatalog isValid_of_mem_builtInCatalog,
      hvehicles.defaulted hreadVehicles (by simp), hchargers.defaulted hreadChargers (by simp),
      hsimulation.defaulted hreadSimulation SimulationConfig.isValid_default,
      Scenario.brokenRule?_eq_none_iff.mp (Except.ok.inj hrules)⟩
  case complete =>
    intro scenario hscenario
    have hrules := Scenario.brokenRule?_eq_none_iff.mpr hscenario.names
    rw [Scenario.toDocument, h.record]
    refine readRecord_eq_valid_iff.mpr ⟨_, rfl, Verdict.obeying_eq_valid_iff.mpr
      ⟨Verdict.map_eq_valid_iff.mpr ⟨(scenario.catalog, scenario.vehicles, scenario.chargers,
        scenario.simulation), ?_, rfl⟩, congrArg Except.ok hrules⟩⟩
    simp only [Verdict.both_eq_valid_iff]
    refine ⟨hcatalog.readField_written hscenario.catalog ?_,
      hvehicles.readField_written hscenario.vehicles ?_,
      hchargers.readField_written hscenario.chargers ?_,
      hsimulation.readField_written hscenario.simulation ?_⟩
    all_goals simp [Document.lookUp]

theorem Scenario.isValid_of_readScenario {d : Document} {scenario : Scenario}
    (h : readScenario d = .valid scenario) : scenario.IsValid :=
  (accepts_readScenario isSpelling_id).sound h

/-! ### Validation twice -/

/-- What `read` answers, `reread` answers for the document that `write` makes of it, also where that
document has texts in the place of infinities and of not-a-number. -/
def RereadsBy (read reread : Document → Verdict α) (write : α → Document) : Prop :=
  ∀ d a, read d = .valid a → reread (write a) = .valid a ∧ reread (write a).spelled = .valid a

/-- What `read` answers it answers again. -/
def Rereads (read : Document → Verdict α) (write : α → Document) : Prop :=
  RereadsBy read read write

theorem rereadsBy_of_accepts {reread : Document → Verdict α} {Q : α → Prop}
    (h : ∀ {spell}, IsSpelling spell → Accepts spell read write P)
    (h' : ∀ {spell}, IsSpelling spell → Accepts spell reread write Q) (hPQ : ∀ a, P a → Q a) :
    RereadsBy read reread write := by
  intro d a hvalid
  have ha : Q a := hPQ a ((h isSpelling_id).sound hvalid)
  exact ⟨(h' isSpelling_id).complete ha, (h' isSpelling_spelled).complete ha⟩

theorem rereads_of_accepts (h : ∀ {spell}, IsSpelling spell → Accepts spell read write P) :
    Rereads read write :=
  rereadsBy_of_accepts h h fun _ => id

/-- The reader of the strategies of one kind: it answers no others, the reader of any strategy
leaves those of this kind to it, and reads again what it has answered. -/
structure ReadsKind (kind : String) (read : Document → Verdict Strategy) : Prop where
  kind_eq : ∀ d s, read d = .valid s → s.kind = kind
  selected : ∀ d s, readStrategy d = .valid s → s.kind = kind → read d = .valid s
  rereads : RereadsBy read readStrategy Strategy.toDocument

/-- A strategy that is read at all is read by the reader of its kind. -/
theorem read_of_kind {d : Document} {s : Strategy} (h : readStrategy d = .valid s) :
    (s.kind = "exclusive" → readExclusive d = .valid s) ∧
      (s.kind = "paired" → readPaired d = .valid s) ∧
      (s.kind = "split" → readSplit d = .valid s) ∧
      (s.kind = "granular" → readGranular d = .valid s) := by
  rcases readStrategy_cases h with hread | hread | hread | hread
  · simp [hread, ((accepts_readExclusive isSpelling_id).sound hread).2]
  · simp [hread, ((accepts_readPaired isSpelling_id).sound hread).2]
  · simp [hread, ((accepts_readSplit isSpelling_id).sound hread).2]
  · simp [hread, ((accepts_readGranular isSpelling_id).sound hread).2]

theorem readsKind_of_accepts {kind : String} {read : Document → Verdict Strategy}
    (h : ∀ {spell}, IsSpelling spell →
      Accepts spell read Strategy.toDocument (Strategy.IsOfKind kind))
    (hselected : ∀ d s, readStrategy d = .valid s → s.kind = kind → read d = .valid s) :
    ReadsKind kind read where
  kind_eq _ _ hread := ((h isSpelling_id).sound hread).2
  selected := hselected
  rereads := rereadsBy_of_accepts h accepts_readStrategy fun _ => And.left

/-- **Validation is idempotent**: a valid configuration of any sort, written out in full, is valid
again and the same.  A strategy is of the same kind again, whether its kind is known beforehand or
selects the reader. -/
theorem validation_rereads :
    Rereads readVehicleSpec VehicleSpec.toDocument ∧
      Rereads readVehicleRequest VehicleRequest.toDocument ∧
      Rereads readExclusive Strategy.toDocument ∧
      Rereads readPaired Strategy.toDocument ∧
      Rereads readSplit Strategy.toDocument ∧
      Rereads readGranular Strategy.toDocument ∧
      Rereads readStrategy Strategy.toDocument ∧
      Rereads readChargerConfig ChargerConfig.toDocument ∧
      Rereads readSimulationConfig SimulationConfig.toDocument ∧
      Rereads readScenario Scenario.toDocument ∧
      ReadsKind "exclusive" readExclusive ∧ ReadsKind "paired" readPaired ∧
      ReadsKind "split" readSplit ∧ ReadsKind "granular" readGranular :=
  ⟨rereads_of_accepts accepts_readVehicleSpec, rereads_of_accepts accepts_readVehicleRequest,
    rereads_of_accepts accepts_readExclusive, rereads_of_accepts accepts_readPaired,
    rereads_of_accepts accepts_readSplit, rereads_of_accepts accepts_readGranular,
    rereads_of_accepts accepts_readStrategy, rereads_of_accepts accepts_readChargerConfig,
    rereads_of_accepts accepts_readSimulationConfig, rereads_of_accepts accepts_readScenario,
    readsKind_of_accepts accepts_readExclusive fun _ _ h => (read_of_kind h).1,
    readsKind_of_accepts accepts_readPaired fun _ _ h => (read_of_kind h).2.1,
    readsKind_of_accepts accepts_readSplit fun _ _ h => (read_of_kind h).2.2.1,
    readsKind_of_accepts accepts_readGranular fun _ _ h => (read_of_kind h).2.2.2⟩

/-- A configuration that leaves much to be converted and to be filled in. -/
def looseDocument : Document :=
  .record [
    ("catalog", .list [.record [
      ("name", .text "Sample"), ("battery_capacity_kwh", .text "40"), ("epa_miles", .bool true),
      ("charge_curve",
        .list [.list [.integer 0, .text "11"], .list [.text "100", .bool true]])]]),
    ("vehicles", .list [.record [("spec", .text "Sample"), ("unplug_soc_pct", .text "55.5")]]),
    ("chargers", .list [
      .record [("grid_connection_kw", .text "1e3"),
        ("strategy", .record [("kind", .text "granular"), ("number_of_plugs", .text "3"),
          ("power_step_kw", .bool true)])],
      .record [("colour", .text "red"),
        ("strategy", .record [("kind", .text "paired"), ("number_of_plugs", .bool true)])]])]

/-- The scenario of the configuration. -/
def looseScenario : Scenario where
  catalog := [⟨"Sample", 40, [(0, 11), (100, 1)], 1⟩]
  vehicles := [⟨"Sample", 10, 111 / 2⟩]
  chargers := [{ gridConnectionKw := 1000, strategy := .granular 3 1 400 },
    { strategy := .paired 1 }]

/-- Its numbers were texts and truth values, and most of its fields were not written at all. -/
theorem validation_rereads_loose :
    readScenario looseDocument = .valid looseScenario ∧
      readScenario looseScenario.toDocument = .valid looseScenario ∧
      readScenario looseScenario.toDocument.spelled = .valid looseScenario ∧
      readPaired (.record [("number_of_plugs", .bool true)]) = .valid (.paired 1) ∧
      readStrategy (Strategy.paired 1).toDocument = .valid (.paired 1) := by
  have hscenario : readScenario looseDocument = .valid looseScenario := by decide +kernel
  have hpaired : readPaired (.record [("number_of_plugs", .bool true)]) = .valid (.paired 1) := by
    decide +kernel
  obtain ⟨-, -, -, -, -, -, -, -, -, hrereads, -, hkind, -, -⟩ := validation_rereads
  obtain ⟨hwritten, hspelled⟩ := hrereads looseDocument looseScenario hscenario
  exact ⟨hscenario, hwritten, hspelled, hpaired, (hkind.rereads _ _ hpaired).1⟩

end ChargingSite

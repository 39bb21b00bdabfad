import ChargingSite.Document.Writer
import ChargingSite.Scenario.Reading
import Mathlib.Data.Prod.Basic

/-!
# Spellings of a document

The notation has no infinities and no not-a-number, so that a document comes back from it with texts
in their place: `Document.spelled` is what `Document.render` has written in the end
(`render_spelled`).  Readers of numbers take such a text for the number, so that it is one of the
ways of spelling a document anew (`IsSpelling`): they keep lists and records as they are, and every
number is still read as the same number.
-/

namespace ChargingSite

namespace Document

/-! ### What the notation makes of a document -/

mutual

/-- A document with texts in the place of the decimals that the notation does not have. -/
def spelled : Document → Document
  | null => null
  | bool value => bool value
  | integer n => integer n
  | decimal x => if x.isFinite then decimal x else text x.shortest
  | text s => text s
  | list items => list (spelledItems items)
  | record fields => record (spelledFields fields)

/-- The items of a list. -/
def spelledItems : List Document → List Document
  | [] => []
  | d :: rest => d.spelled :: spelledItems rest

/-- The fields of a record. -/
def spelledFields : List (String × Document) → List (String × Document)
  | [] => []
  | (name, d) :: rest => (name, d.spelled) :: spelledFields rest

end

theorem spelledItems_eq_map (items : List Document) : spelledItems items = items.map spelled := by
  induction items with
  | nil => rfl
  | cons d rest ih => rw [spelledItems, ih, List.map_cons]

theorem spelledFields_eq_map (fields : List (String × Document)) :
    spelledFields fields = fields.map (Prod.map id spelled) := by
  induction fields with
  | nil => rfl
  | cons field rest ih => rw [spelledFields, ih, List.map_cons, Prod.map_apply, id]

mutual

theorem renderOnto_spelled (written : String) (d : Document) :
    renderOnto written d.spelled = renderOnto written d := by
  cases d with
  | decimal x =>
    unfold spelled
    by_cases hfinite : x.isFinite = true
    · -- a finite double stays a number
      rw [if_pos hfinite]
    · -- any other is written as the text that it becomes
      rw [if_neg hfinite, renderOnto, renderOnto, if_neg hfinite]
  | list items => rw [spelled, renderOnto, renderOnto, renderItems_spelledItems]
  | record fields => rw [spelled, renderOnto, renderOnto, renderFields_spelledFields]
  | _ => rw [spelled]

theorem renderItems_spelledItems (written : String) (first : Bool) (items : List Document) :
    renderItems written first (spelledItems items) = renderItems written first items := by
  cases items with
  | nil => rw [spelledItems]
  | cons d rest =>
    rw [spelledItems, renderItems, renderItems, renderOnto_spelled, renderItems_spelledItems]

theorem renderFields_spelledFields (written : String) (first : Bool)
    (fields : List (String × Document)) :
    renderFields written first (spelledFields fields) = renderFields written first fields := by
  cases fields with
  | nil => rw [spelledFields]
  | cons field rest =>
    rw [spelledFields, renderFields, renderFields, renderOnto_spelled, renderFields_spelledFields]

end

/-- **The notation cannot tell** a document from its spelling. -/
theorem render_spelled (d : Document) : d.spelled.render = d.render :=
  renderOnto_spelled "" d

end Document

/-! ### Spellings -/

/-- Another way of writing documents, in which every number is read as before. -/
structure IsSpelling (spell : Document → Document) : Prop where
  text : ∀ s, spell (.text s) = .text s
  integer : ∀ n, spell (.integer n) = .integer n
  readNumber_decimal : ∀ x, readNumber (spell (.decimal x)) = .valid x
  list : ∀ items, spell (.list items) = .list (items.map spell)
  record : ∀ fields, spell (.record fields) = .record (fields.map (Prod.map id spell))

theorem isSpelling_id : IsSpelling id where
  text _ := rfl
  integer _ := rfl
  readNumber_decimal _ := rfl
  list items := by rw [List.map_id, id]
  record fields := by rw [Prod.map_id, List.map_id, id]

/-- The words for the infinities and for not-a-number are read as what they stand for. -/
theorem isSpelling_spelled : IsSpelling Document.spelled where
  text s := by rw [Document.spelled]
  integer n := by rw [Document.spelled]
  readNumber_decimal x := by
    cases x with
    | nan =>
      -- the numbers that have no digits are read back from their names
      decide
    | infinity negative => cases negative <;> decide
    | finite negative m e h => rw [Document.spelled, Binary64.isFinite, if_pos rfl, readNumber]
  list items := by rw [Document.spelled, Document.spelledItems_eq_map]
  record fields := by rw [Document.spelled, Document.spelledFields_eq_map]

end ChargingSite

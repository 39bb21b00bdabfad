import ChargingSite.Number.Decimal.Shortest
import ChargingSite.Text.Quoted

/-!
# Documents

Configurations and reports are documents: nested lists and records of texts, truth values and
numbers.  An integer is told apart from a decimal, because it has no limit on its size.  A record
keeps the order of its fields; where a name occurs twice, the last field counts.
-/

namespace ChargingSite

/-- A tree of values. -/
inductive Document where
  | null
  | bool (value : Bool)
  | integer (value : Int)
  | decimal (value : Binary64)
  | text (value : String)
  | list (items : List Document)
  | record (fields : List (String × Document))

instance : Inhabited Document := ⟨.null⟩

namespace Document

/-- The last field of a record with the given name. -/
def lookUp (fields : List (String × Document)) (name : String) : Option Document :=
  (fields.reverse.find? fun field => field.1 = name).map Prod.snd

/-! ### Values inside a message -/

mutual

/-- A value as it stands inside another one. -/
def inlineText : Document → String
  | null => "None"
  | bool true => "True"
  | bool false => "False"
  | integer n => toString n
  | decimal x => x.shortest
  | text s => quoted s
  | list items => "[" ++ ", ".intercalate (inlineItems items) ++ "]"
  | record fields => "\x7b" ++ ", ".intercalate (inlineFields fields) ++ "\x7d"

/-- The items of a list. -/
def inlineItems : List Document → List String
  | [] => []
  | d :: rest => d.inlineText :: inlineItems rest

/-- The fields of a record, with their names in quotes. -/
def inlineFields : List (String × Document) → List String
  | [] => []
  | (name, d) :: rest => (quoted name ++ ": " ++ d.inlineText) :: inlineFields rest

end

/-- A value as a message quotes it: a text as it is, any other value as it stands in a list. -/
def messageText : Document → String
  | text s => s
  | d => d.inlineText

end Document

end ChargingSite

import ChargingSite.Document
import ChargingSite.Number.Decimal.Reader

/-!
# Reading documents

`Document.read?` reads the JSON notation of a document.  The reader takes one character at a time:
its state is what it is in the middle of (`ReaderMode`) and the stack of lists and records that are
still open (`OpenContainer`), so a document of any depth is read in one pass.
-/

namespace ChargingSite

/-! ### Open containers -/

/-- What a record waits for. -/
inductive FieldSlot where
  /-- The name of a field. -/
  | name
  /-- The colon after a name. -/
  | colon (name : String)
  /-- The value after a colon. -/
  | value (name : String)
  /-- What follows a value. -/
  | separator

/-- A list or a record that is not closed yet; what it holds so far is in reverse order. -/
inductive OpenContainer where
  /-- A list; `full` after an item and before the next comma. -/
  | list (items : List Document) (full : Bool)
  | record (fields : List (String × Document)) (slot : FieldSlot)

/-- What has been read: the containers still open, and the document once it is complete. -/
structure Reading where
  stack : List OpenContainer := []
  complete : Option Document := none

/-- Puts a value where one is waited for. -/
def Reading.place : Reading → Document → Option Reading
  | ⟨[], none⟩, d => some ⟨[], some d⟩
  | ⟨.list items false :: outer, c⟩, d => some ⟨.list (d :: items) true :: outer, c⟩
  | ⟨.record fields .name :: outer, c⟩, .text name =>
    some ⟨.record fields (.colon name) :: outer, c⟩
  | ⟨.record fields (.value name) :: outer, c⟩, d =>
    some ⟨.record ((name, d) :: fields) .separator :: outer, c⟩
  | _, _ => none

/-- Takes a bracket, a comma or a colon. -/
def Reading.punctuate : Reading → Char → Option Reading
  | ⟨stack, none⟩, '[' => some ⟨.list [] false :: stack, none⟩
  | ⟨stack, none⟩, '{' => some ⟨.record [] .name :: stack, none⟩
  | ⟨.list items full :: outer, c⟩, ']' =>
    if full || items.isEmpty then Reading.place ⟨outer, c⟩ (.list items.reverse) else none
  | ⟨.record fields slot :: outer, c⟩, '}' =>
    match slot, fields with
    | .separator, _ | .name, [] => Reading.place ⟨outer, c⟩ (.record fields.reverse)
    | _, _ => none
  | ⟨.list items true :: outer, c⟩, ',' => some ⟨.list items false :: outer, c⟩
  | ⟨.record fields .separator :: outer, c⟩, ',' => some ⟨.record fields .name :: outer, c⟩
  | ⟨.record fields (.colon name) :: outer, c⟩, ':' =>
    some ⟨.record fields (.value name) :: outer, c⟩
  | _, _ => none

/-! ### Words and texts -/

/-- A number, or one of the words for the other simple values. -/
def wordValue? (cs : List Char) : Option Document :=
  match String.ofList cs with
  | "null" => some .null
  | "true" => some (.bool true)
  | "false" => some (.bool false)
  | "NaN" => some (.decimal .nan)
  | "Infinity" => some (.decimal (.infinity false))
  | "-Infinity" => some (.decimal (.infinity true))
  | _ =>
    let (negative, ds) := takeSign cs
    if !ds.isEmpty && ds.all Char.isDigit then
      some (.integer (if negative then -(natOfDigits ds : Int) else natOfDigits ds))
    else (Literal.read? cs).map fun l => .decimal l.toBinary64

/-- The characters of a text given by code points, where two surrogates in a row stand for one
character. -/
def charsOfUnits : List Nat → List Char
  | [] => []
  | high :: low :: rest =>
    if 0xd800 ≤ high ∧ high < 0xdc00 ∧ 0xdc00 ≤ low ∧ low < 0xe000 then
      Char.ofNat (0x10000 + (high - 0xd800) * 0x400 + (low - 0xdc00)) :: charsOfUnits rest
    else Char.ofNat high :: charsOfUnits (low :: rest)
  | [unit] => [Char.ofNat unit]

/-- What a character after a backslash stands for. -/
def escapedUnit? : Char → Option Nat
  | '"' => some 0x22
  | '\\' => some 0x5c
  | '/' => some 0x2f
  | 'b' => some 0x08
  | 'f' => some 0x0c
  | 'n' => some 0x0a
  | 'r' => some 0x0d
  | 't' => some 0x09
  | _ => none

/-- The value of a hexadecimal digit. -/
def hexDigit? (c : Char) : Option Nat :=
  if c.isDigit then some (c.toNat - '0'.toNat)
  else if 'a' ≤ c ∧ c ≤ 'f' then some (c.toNat - 'a'.toNat + 10)
  else if 'A' ≤ c ∧ c ≤ 'F' then some (c.toNat - 'A'.toNat + 10)
  else none

/-! ### One character at a time -/

/-- What the reader is in the middle of; characters read so far are in reverse order. -/
inductive ReaderMode where
  | between
  | word (read : List Char)
  /-- Inside quotes. -/
  | quotes (read : List Nat)
  /-- After a backslash inside quotes. -/
  | backslash (read : List Nat)
  /-- Inside a code point of four digits, of which `left` are still to come. -/
  | codePoint (read : List Nat) (left code : Nat)

/-- The state of the reader. -/
structure Reader where
  mode : ReaderMode := .between
  reading : Reading := {}

/-- Takes a character that stands between values. -/
def Reader.start (reading : Reading) (c : Char) : Option Reader :=
  if c.isWhitespace then some ⟨.between, reading⟩
  else if c = '"' then some ⟨.quotes [], reading⟩
  else if c ∈ ['[', ']', '{', '}', ',', ':'] then
    (reading.punctuate c).map fun reading => ⟨.between, reading⟩
  else some ⟨.word [c], reading⟩

/-- Takes one character. -/
def Reader.step (r : Reader) (c : Char) : Option Reader :=
  match r.mode with
  | .between => Reader.start r.reading c
  | .word read =>
    if c.isWhitespace || c ∈ [']', '}', ',', ':'] then do
      let d ← wordValue? read.reverse
      let reading ← r.reading.place d
      Reader.start reading c
    else some { r with mode := .word (c :: read) }
  | .quotes read =>
    if c = '"' then do
      let reading ← r.reading.place (.text (String.ofList (charsOfUnits read.reverse)))
      return ⟨.between, reading⟩
    else if c = '\\' then some { r with mode := .backslash read }
    else some { r with mode := .quotes (c.toNat :: read) }
  | .backslash read =>
    if c = 'u' then some { r with mode := .codePoint read 4 0 }
    else (escapedUnit? c).map fun unit => { r with mode := .quotes (unit :: read) }
  | .codePoint read left code =>
    (hexDigit? c).map fun digit =>
      let code := code * 16 + digit
      let mode := if left ≤ 1 then .quotes (code :: read) else .codePoint read (left - 1) code
      { r with mode }

/-- Reads a document. -/
def Document.read? (s : String) : Option Document := do
  -- The line break ends a number that stands alone.
  let r ← (s.toList ++ ['\n']).foldlM Reader.step {}
  match r with
  | ⟨.between, ⟨[], complete⟩⟩ => complete
  | _ => none

end ChargingSite

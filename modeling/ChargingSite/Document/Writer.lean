import ChargingSite.Document

/-!
# Writing documents

`Document.render` writes the JSON notation of a document.  Decimals keep their shortest form, which
always shows a point or an exponent and so tells them from integers.  The notation has no infinities
and no not-a-number; these are written as texts.
-/

namespace ChargingSite

namespace Document

/-- One character inside the quotes of a text. -/
def renderChar (c : Char) : List Char :=
  match c with
  | '"' => ['\\', '"']
  | '\\' => ['\\', '\\']
  | '\n' => ['\\', 'n']
  | '\r' => ['\\', 'r']
  | '\t' => ['\\', 't']
  | c => if c.toNat < 0x20 then '\\' :: 'u' :: hexText 4 c.toNat else [c]

/-- Adds a text in quotes to what is written. -/
def renderText (written : String) (s : String) : String :=
  (s.foldl (fun w c => (renderChar c).foldl String.push w) (written.push '"')).push '"'

mutual

/-- Adds a document to what is written. -/
def renderOnto (written : String) : Document → String
  | null => written ++ "null"
  | bool true => written ++ "true"
  | bool false => written ++ "false"
  | integer n => written ++ toString n
  | decimal x => if x.isFinite then written ++ x.shortest else renderText written x.shortest
  | text s => renderText written s
  | list items => (renderItems (written.push '[') true items).push ']'
  | record fields => (renderFields (written.push '{') true fields).push '}'

/-- Adds the items of a list, with commas between them. -/
def renderItems (written : String) (first : Bool) : List Document → String
  | [] => written
  | d :: rest =>
    renderItems (renderOnto (if first then written else written.push ',') d) false rest

/-- Adds the fields of a record, with commas between them. -/
def renderFields (written : String) (first : Bool) : List (String × Document) → String
  | [] => written
  | (name, d) :: rest =>
    let opened := renderText (if first then written else written.push ',') name
    renderFields (renderOnto (opened.push ':') d) false rest

end

/-- The notation of a document. -/
def render (d : Document) : String :=
  renderOnto "" d

end Document

end ChargingSite

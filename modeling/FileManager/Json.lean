import Mathlib.Data.Rat.Defs

/-! JSON values, as they appear in token payloads and in the views of records. -/

namespace FileManager

/-- JSON values; a mapping keeps its insertion order. -/
inductive Json
  | null
  | bool (b : Bool)
  | int (n : Int)
  | float (q : Rat)
  | str (s : String)
  | list (items : List Json)
  | dict (fields : List (String × Json))

def Json.opt {α : Type} (f : α → Json) (value : Option α) : Json := (value.map f).getD .null

def Json.asText : Json → Option String
  | .str s => some s
  | _ => none

/-- A list of strings. -/
def Json.asTexts : Json → Option (List String)
  | .list items => items.mapM Json.asText
  | _ => none

/-- The value under a key of a mapping. -/
def Json.field (name : String) : Json → Option Json
  | .dict fields => fields.lookup name
  | _ => none

end FileManager

/-
Records and choices written as JSON. A record is an object with its fields as members, or an array
of them in order; a choice is its name, or an object with the name as its only key and null under
it.
-/
import Powerline.Json.Value

namespace Powerline.Json

/-- Why a text is not the record it should be. -/
inductive Defect where
  | notText
  | malformed
  | noRecord
  | tooLong
  | noKey
  | repeated (field : String)
  | badField (field : String)
  deriving DecidableEq, Repr

def Defect.message : Defect → String
  | notText => "not UTF-8 text"
  | malformed => "not JSON"
  | noRecord => "neither an object nor an array"
  | tooLong => "too many items"
  | noKey => "a key is not text"
  | repeated field => "field " ++ field ++ " occurs twice"
  | badField field => "field " ++ field ++ " is not valid"

/-! ## Fields -/

/-- The members of an object that are fields of a record, in the order they are written. -/
def memberFields (names : List String) :
    List (Option (List Char) × Json) → Except Defect (List (String × Json))
  | [] => .ok []
  | (none, _) :: _ => .error .noKey
  | (some key, value) :: rest =>
    match memberFields names rest with
    | .error defect => .error defect
    | .ok fields =>
      let key := String.ofList key
      -- members that are no fields may repeat
      if !names.contains key then .ok fields
      else if fields.any (·.1 == key) then .error (.repeated key)
      else .ok ((key, value) :: fields)

/-- The fields of a record that are given. -/
def fields (names : List String) : Json → Except Defect (List (String × Json))
  | .object members => memberFields names members
  | .array items => if items.length ≤ names.length then .ok (names.zip items) else .error .tooLong
  | _ => .error .noRecord

/-- The value of a field, or the one it has when it is not given. -/
def field {α : Type} (fields : List (String × Json)) (name : String) (read : Json → Option α)
    (default : α) : Except Defect α :=
  match fields.lookup name with
  | none => .ok default
  | some j =>
    match read j with
    | some a => .ok a
    | none => .error (.badField name)

/-! ## Kinds of fields -/

/-- The number a field of `bits` bits holds. -/
def toWord? (bits : Nat) (j : Json) : Option Nat := j.toNat?.filter (· < 1 <<< bits)

def named? {α : Type} (name : α → String) (all : List α) (text : List Char) : Option α :=
  all.find? fun a => name a == String.ofList text

/-- The choice that a value stands for. -/
def toChoice? {α : Type} (name : α → String) (all : List α) : Json → Option α
  | .string (some text) => named? name all text
  | .object [(some key, .null)] => named? name all key
  | _ => none

end Powerline.Json

import Conform.Value

/-!
# Decoding records

A record is given as an object of its fields or as an array of them in their order. A field that
is missing takes its default, a field of the wrong kind spoils the record, and fields that are not
the record's own are ignored.
-/

namespace Conform

/-- The fields of a record that has at most `size` of them, as name and place find them. -/
inductive Record where
  | named (fields : Dict Value)
  | listed (items : List Value)

namespace Record

def of? (size : Nat) : Value → Option Record
  | .object d => some (named d)
  | .array items => if items.length ≤ size then some (listed items) else none
  | _ => none

def field? (place : Nat) (name : String) : Record → Option Value
  | named d => d.get? name
  | listed items => items[place]?

/-- A field that `decode` reads, or its default. -/
def get? {α : Type} (r : Record) (place : Nat) (name : String) (default : α)
    (decode : Value → Option α) : Option α :=
  match r.field? place name with
  | none => some default
  | some v => decode v

def flag? (r : Record) (place : Nat) (name : String) (default : Bool) : Option Bool :=
  r.get? place name default Value.bool?

/-- A field that may also be null, which means the same as its absence. -/
def optional? {α : Type} (r : Record) (place : Nat) (name : String) (decode : Value → Option α) :
    Option (Option α) :=
  r.get? place name none fun
    | .null => some none
    | v => (decode v).map some

end Record

/-- An object whose values are all strings. -/
def Value.texts? : Value → Option (Dict String)
  | .object d => Dict.traverse? Value.string? d
  | _ => none

end Conform

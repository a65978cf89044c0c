import FlowEvents.Wire.Fault

/-! # Reading records

A record is read from an object, by the names of its fields, or from an array, by their order.
Both go from left to right and stop at the first fault.

In an object the members may come in any order, and members of other names are passed over.  A
field that comes again is refused before its value is looked at.  Only at the end it is seen which
fields are missing, and the first of them in declaration order is reported.

In an array each item is the next field; an array that ends early is too short, one that goes on is
no form of the record at all.

A field may be allowed to be absent, which stands for a given value.
-/

namespace FlowEvents.Wire

structure Field : Type 1 where
  name : String
  Value : Type
  read : Json → Outcome Value
  /-- What its absence stands for, if it may be absent. -/
  absent : Option Value

def Field.required {α : Type} (name : String) (read : Json → Outcome α) : Field :=
  ⟨name, α, read, none⟩

def Field.optional {α : Type} (name : String) (read : Json → Outcome α) (absent : α) : Field :=
  ⟨name, α, read, some absent⟩

/-- One value for each field, in declaration order. -/
def Values : List Field → Type
  | [] => Unit
  | f :: fs => f.Value × Values fs

/-- The values found so far, in declaration order. -/
def Slots : List Field → Type
  | [] => Unit
  | f :: fs => Option f.Value × Slots fs

namespace Slots

def empty : (fs : List Field) → Slots fs
  | [] => ()
  | _ :: fs => (none, empty fs)

/-- Takes in a member: fills the slot of its name, or passes over its value. -/
def put (name : String) (value : Json) : (fs : List Field) → Slots fs → Outcome (Slots fs)
  | [], () => if value.isFormed then .ok () else .error (.broken (b := .flawed .malformed))
  | f :: fs, (slot, slots) =>
    if f.name = name then
      match slot with
      | some _ => .error (.unsuited (.duplicateField name))
      | none => do
        let x ← f.read value
        return (some x, slots)
    else do
      let slots ← put name value fs slots
      return (slot, slots)

/-- The values, once every slot is filled or its field may be absent. -/
def finish : (fs : List Field) → Slots fs → Outcome (Values fs)
  | [], () => .ok ()
  | f :: fs, (slot, slots) =>
    match slot <|> f.absent with
    | none => .error (.unsuited (.missingField f.name))
    | some x => do
      let xs ← finish fs slots
      return (x, xs)

def fill (fs : List Field) (slots : Slots fs) : List (Json.Name × Json) → Outcome (Slots fs)
  | [] => .ok slots
  | (name, value) :: members => do
    let name ← readName name
    let slots ← put name value fs slots
    fill fs slots members

/-! ## One slot after the other -/

def cons {f : Field} {fs : List Field} (slot : Option f.Value) (slots : Slots fs) :
    Slots (f :: fs) :=
  (slot, slots)

variable {f : Field} {fs : List Field} {name : String}

theorem put_nil {value : Json} (h : value.isFormed = true) (slots : Slots []) :
    put name value [] slots = .ok slots :=
  if_pos h

theorem put_same (f : Field) (slots : Slots fs) (value : Json) :
    put f.name value (f :: fs) (cons none slots) =
      f.read value >>= fun x => .ok (cons (some x) slots) := by
  show (if f.name = f.name then f.read value >>= fun x => .ok (some x, slots) else _) = _
  exact if_pos rfl

theorem put_again (f : Field) (x : f.Value) (slots : Slots fs) (value : Json) :
    put f.name value (f :: fs) (cons (some x) slots) =
      .error (.unsuited (.duplicateField f.name)) :=
  if_pos rfl

theorem put_other (h : f.name ≠ name) (slot : Option f.Value) (slots : Slots fs) (value : Json) :
    put name value (f :: fs) (cons slot slots) =
      put name value fs slots >>= fun slots => .ok (cons slot slots) := by
  show (if f.name = name then _ else put name value fs slots >>= fun slots =>
    .ok (slot, slots)) = _
  exact if_neg h

theorem fill_named (fs : List Field) (slots : Slots fs) (name : String) (value : Json)
    (members : List (Json.Name × Json)) :
    fill fs slots ((.plain name, value) :: members) =
      put name value fs slots >>= fun slots => fill fs slots members := rfl

theorem finish_cons (slot : Option f.Value) (slots : Slots fs) :
    finish (f :: fs) (cons slot slots) =
      match slot <|> f.absent with
      | none => .error (.unsuited (.missingField f.name))
      | some x => finish fs slots >>= fun xs => .ok (x, xs) := rfl

end Slots

/-- Reads fields from items; `present` items have been read before. -/
def readItems (title : String) (total present : Nat) :
    (fs : List Field) → List Json → Outcome (Values fs)
  | [], [] => .ok ()
  | [], item :: _ => .error (surplus .trailing item)
  | f :: fs, [] =>
    match f.absent with
    | none => .error (.unsuited (.tooShort present title total))
    | some x => do
      let xs ← readItems title total present fs []
      return (x, xs)
  | f :: fs, item :: items => do
    let x ← f.read item
    let xs ← readItems title total (present + 1) fs items
    return (x, xs)

/-- Reads the fields of the record `title` from an object or an array. -/
def readRecord (title : String) (fs : List Field) (j : Json) : Outcome (Values fs) :=
  match j with
  | .obj members => do
    let slots ← Slots.fill fs (Slots.empty fs) members
    Slots.finish fs slots
  | .arr items => readItems title fs.length 0 fs items
  | j => wrongKind (.record title) j

end FlowEvents.Wire

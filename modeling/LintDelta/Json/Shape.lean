import LintDelta.Json.Layout
import LintDelta.Json.Skip
import LintDelta.OrderedMap

/-!
# Shapes

A `Shape` says what a reader wants at a place of a JSON text, and `Shape.Val` is the type of what it
delivers: a record is a tuple of its fields, a choice of variants is a sum. One definition reads
every shape (`Shape.read`) and one writes it (`Shape.write`), so a record type of the library is
serialized by naming its shape.

A record is read from an object, whose unknown members are passed over, or from a list of its fields
in order.
-/

namespace LintDelta.Json

mutual

/-- What a reader wants at a place. -/
inductive Shape where
  /-- A text, which an error calls `wanted`. -/
  | text (wanted : String)
  | flag
  | signed
  | list (item : Shape)
  /-- An object with any names. -/
  | dict (item : Shape)
  /-- A record, which an error calls `wanted`. -/
  | record (wanted : String) (fields : Fields)
  | label (names : List String)
  /-- One of some records, under its name. -/
  | variant (title : String) (cases : Cases)
  /-- A record, read from an object alone, that keeps its unknown members. -/
  | openRecord (wanted : String) (fields : Fields)

inductive Fields where
  | nil
  | required (key : String) (shape : Shape) (rest : Fields)
  /-- A field that may be missing or `null`. -/
  | optional (key : String) (shape : Shape) (rest : Fields)
  /-- A list that counts as empty when it is missing, and is not written when empty. -/
  | listed (key : String) (item : Shape) (rest : Fields)

inductive Cases where
  | nil
  | cons (name : String) (fields : Fields) (rest : Cases)

end

mutual

/-- What reading a shape delivers. -/
def Shape.Val : Shape → Type
  | .text _ => String
  | .flag => Bool
  | .signed => Int
  | .list item => List item.Val
  | .dict item => List (String × item.Val)
  | .record _ fields => fields.Val
  | .label names => Fin names.length
  | .variant _ cases => cases.Val
  | .openRecord _ fields => fields.Val × List (String × Json)

def Fields.Val : Fields → Type
  | .nil => Unit
  | .required _ shape rest => shape.Val × rest.Val
  | .optional _ shape rest => Option shape.Val × rest.Val
  | .listed _ item rest => List item.Val × rest.Val

def Cases.Val : Cases → Type
  | .nil => Empty
  | .cons _ fields rest => fields.Val ⊕ rest.Val

end

/-! ## Records in the making -/

/-- The fields of a record that were read so far. -/
def Fields.Slots : Fields → Type
  | .nil => Unit
  | .required _ shape rest => Option shape.Val × rest.Slots
  | .optional _ shape rest => Option (Option shape.Val) × rest.Slots
  | .listed _ item rest => Option (List item.Val) × rest.Slots

def Fields.empty : (fields : Fields) → fields.Slots
  | .nil => ()
  | .required _ _ rest => (none, rest.empty)
  | .optional _ _ rest => (none, rest.empty)
  | .listed _ _ rest => (none, rest.empty)

/-- The record, once its object has ended. -/
def Fields.finish : (fields : Fields) → fields.Slots → Except Error fields.Val
  | .nil, _ => .ok ()
  | .required key _ rest, (slot, slots) =>
    match slot with
    | none => .error (.missingField key)
    | some x => do return (x, ← rest.finish slots)
  | .optional _ _ rest, (slot, slots) => do return (slot.getD none, ← rest.finish slots)
  | .listed _ _ rest, (slot, slots) => do return (slot.getD [], ← rest.finish slots)

def Fields.size : Fields → Nat
  | .nil => 0
  | .required _ _ rest => rest.size + 1
  | .optional _ _ rest => rest.size + 1
  | .listed _ _ rest => rest.size + 1

/-- A record read from a list: its name and the number of its fields. -/
def Fields.wantedSize (wanted : String) (fields : Fields) : String :=
  wanted ++ " with " ++ toString fields.size ++ (if fields.size = 1 then " element" else " elements")

def Cases.names : Cases → List String
  | .nil => []
  | .cons name _ rest => name :: rest.names

/-! ## Reading -/

/-- Reads into a slot that must still be empty. -/
def intoSlot {α σ : Type} (key : String) (slot : Option α) (put : α → σ) (reader : Reader α) :
    Reader σ := fun cs =>
  match slot with
  | some _ => .error (.duplicateField key)
  | none => do
    let (x, rest) ← reader (← colon cs)
    return (put x, rest)

/-- `null` for none, or a value. -/
def nullable {α : Type} (reader : Reader α) : Reader (Option α) := fun cs =>
  match skipSpace cs with
  | 'n' :: rest => do return (none, ← word ['u', 'l', 'l'] rest)
  | cs => do
    let (x, rest) ← reader cs
    return (some x, rest)

def listOf {α : Type} (item : Reader α) : Reader (List α) := fun cs =>
  match skipSpace cs with
  | '[' :: rest => listBody item rest
  | cs => .error (mismatch "a sequence" cs)

def textOf (wanted : String) : Reader String := fun cs =>
  match skipSpace cs with
  | '"' :: rest => textBody rest
  | cs => .error (mismatch wanted cs)

def signedInteger : Reader Int := fun cs =>
  match skipSpace cs with
  | [] => .error .endInValue
  | c :: rest =>
    if c = '-' || isDigit c then do
      match ← numeral (c :: rest) with
      | (.integer n, rest) =>
        if n ≤ 9223372036854775807 then return (n, rest)
        else throw (.wrongValue (.integer n) "i64")
      | (.float x, _) => throw (.wrongType (.float x) "i64")
    else .error (mismatch "i64" (c :: rest))

def truth : Reader Bool := fun cs =>
  match skipSpace cs with
  | 't' :: rest => do return (true, ← word ['r', 'u', 'e'] rest)
  | 'f' :: rest => do return (false, ← word ['a', 'l', 's', 'e'] rest)
  | cs => .error (mismatch "a boolean" cs)

/-- Passes over the value of a member. -/
def skipMember {σ : Type} (state : σ) : Reader σ := fun cs => do
  return (state, ← skipValue (← colon cs))

/-- The `null` that may stand in for the fields of a bare name. -/
def unit : Reader Unit := fun cs =>
  match skipSpace cs with
  | 'n' :: rest => do return ((), ← word ['u', 'l', 'l'] rest)
  | cs => .error (mismatch "unit" cs)

def closeChoice (cs : List Char) : Except Error (List Char) :=
  match skipSpace cs with
  | [] => .error .endInObject
  | '}' :: rest => .ok rest
  | _ => .error .noValue

/-- One of some names, bare or as the name of a `null` member. -/
def labelOf (names : List String) : Reader (Fin names.length) := fun cs =>
  match skipSpace cs with
  | [] => .error .endInValue
  | '"' :: rest => do
    let (name, rest) ← textBody rest
    return (← named name, rest)
  | '{' :: rest => do
    let (name, rest) ← textOf "variant identifier" rest
    let label ← named name
    let (_, rest) ← unit (← colon rest)
    return (label, ← closeChoice rest)
  | _ => .error .noValue
where
  named (name : String) : Except Error (Fin names.length) :=
    match names.finIdxOf? name with
    | some i => .ok i
    | none => .error (.unknownVariant name names)

/-- One of some names, in a value that was read before. -/
def labelIn (names : List String) : Json → Except Error (Fin names.length)
  | .text name => labelOf.named names name
  | .object members => do
    match (OrderedMap.ofList members).bindings with
    | [(name, x)] =>
      let label ← labelOf.named names name
      match x with
      | .null => return label
      | x => throw (.wrongType x.found "unit")
    | _ => throw (.wrongValue .object "map with a single key")
  | x => .error (.wrongType x.found "string or map")

/-- A record from an object or from a list, given the reader of its fields in order and the reader
of each member. -/
def recordOf (wanted : String) (fields : Fields) (inOrder : Reader fields.Val)
    (put : String → fields.Slots → Option (Reader fields.Slots)) : Reader fields.Val := fun cs =>
  match skipSpace cs with
  | '[' :: rest => do
    let (x, rest) ← inOrder rest
    return (x, ← closeList rest)
  | '{' :: rest => do
    let (slots, rest) ← objectBody (fun name slots =>
      (put name slots).getD (skipMember slots)) fields.empty rest
    return (← fields.finish slots, rest)
  | cs => .error (mismatch wanted cs)

mutual

def Shape.read : (shape : Shape) → Reader shape.Val
  | .text wanted => textOf wanted
  | .flag => truth
  | .signed => signedInteger
  | .list item => listOf item.read
  | .dict item => fun cs =>
    match skipSpace cs with
    | '{' :: rest => do
      let (ms, rest) ← objectBody (fun name (ms : List (String × item.Val)) cs => do
        let (x, rest) ← item.read (← colon cs)
        return ((name, x) :: ms, rest)) [] rest
      return (ms.reverse, rest)
    | cs => .error (mismatch "a map" cs)
  | .record wanted fields =>
    recordOf wanted fields (fields.inOrder (fields.wantedSize wanted) 0) fields.put
  | .label names => labelOf names
  | .variant title cases => fun cs =>
    match skipSpace cs with
    | [] => .error .endInValue
    | '"' :: rest => do
      let (name, _) ← textBody rest
      if cases.names.contains name then throw (.wrongType .bareVariant "struct variant")
      else throw (.unknownVariant name cases.names)
    | '{' :: rest => do
      let (name, rest) ← textOf "variant identifier" rest
      match cases.read title name with
      | none => throw (.unknownVariant name cases.names)
      | some reader =>
        let (x, rest) ← reader (← colon rest)
        return (x, ← closeChoice rest)
    | _ => .error .noValue
  | .openRecord wanted fields => fun cs =>
    match skipSpace cs with
    | '{' :: rest => do
      let ((slots, extra), rest) ← objectBody (fun name (state : fields.Slots × _) cs =>
        let (slots, extra) := state
        match fields.put name slots with
        | some reader => do
          let (slots, rest) ← reader cs
          return ((slots, extra), rest)
        | none => do
          -- the bracket of the record stands open
          let (x, rest) ← anyValue (maxDepth - 1) (← colon cs)
          return ((slots, (name, x) :: extra), rest)) (fields.empty, []) rest
      return ((← fields.finish slots, extra.reverse), rest)
    | cs => .error (mismatch wanted cs)

/-- The reader of a member, from its colon on, if the record has a field of that name. -/
def Fields.put : (fields : Fields) → String → fields.Slots → Option (Reader fields.Slots)
  | .nil, _, _ => none
  | .required key shape rest, name, (slot, slots) =>
    if name = key then some (intoSlot key slot (fun x => (some x, slots)) shape.read)
    else (rest.put name slots).map fun reader cs => do
      let (slots, cs) ← reader cs
      return ((slot, slots), cs)
  | .optional key shape rest, name, (slot, slots) =>
    if name = key then some (intoSlot key slot (fun x => (some x, slots)) (nullable shape.read))
    else (rest.put name slots).map fun reader cs => do
      let (slots, cs) ← reader cs
      return ((slot, slots), cs)
  | .listed key item rest, name, (slot, slots) =>
    if name = key then some (intoSlot key slot (fun x => (some x, slots)) (listOf item.read))
    else (rest.put name slots).map fun reader cs => do
      let (slots, cs) ← reader cs
      return ((slot, slots), cs)

/-- The fields of a record from a list, after `count` of them; the list may end early where only
fields that count as empty are left. -/
def Fields.inOrder : (fields : Fields) → (wanted : String) → (count : Nat) → Reader fields.Val
  | .nil, _, _ => fun cs => .ok ((), cs)
  | .required _ shape rest, wanted, count => fun cs => do
    match ← nextItem (count == 0) cs with
    | none => throw (.wrongLength count wanted)
    | some cs =>
      let (x, cs) ← shape.read cs
      let (xs, cs) ← rest.inOrder wanted (count + 1) cs
      return ((x, xs), cs)
  | .optional _ shape rest, wanted, count => fun cs => do
    match ← nextItem (count == 0) cs with
    | none => throw (.wrongLength count wanted)
    | some cs =>
      let (x, cs) ← nullable shape.read cs
      let (xs, cs) ← rest.inOrder wanted (count + 1) cs
      return ((x, xs), cs)
  | .listed _ item rest, wanted, count => fun cs => do
    match ← nextItem (count == 0) cs with
    | none =>
      let (xs, cs) ← rest.inOrder wanted (count + 1) cs
      return (([], xs), cs)
    | some cs =>
      let (x, cs) ← listOf item.read cs
      let (xs, cs) ← rest.inOrder wanted (count + 1) cs
      return ((x, xs), cs)

def Cases.read : (cases : Cases) → (title name : String) → Option (Reader cases.Val)
  | .nil, _, _ => none
  | .cons key fields rest, title, name =>
    if name = key then some fun cs => do
      let wanted := "struct variant " ++ title ++ "::" ++ key
      let (x, cs) ←
        recordOf wanted fields (fields.inOrder (fields.wantedSize wanted) 0) fields.put cs
      return (Sum.inl x, cs)
    else (rest.read title name).map fun reader cs => do
      let (x, cs) ← reader cs
      return (Sum.inr x, cs)

end

/-! ## Writing -/

mutual

def Shape.write : (shape : Shape) → shape.Val → Json
  | .text _, s => .text s
  | .flag, b => .bool b
  | .signed, n => .integer n
  | .list item, xs => .list (xs.map item.write)
  | .dict item, ms => .object (ms.map fun (name, x) => (name, item.write x))
  | .record _ fields, x => .object (fields.write x)
  | .label names, i => .text (names.get i)
  | .variant _ cases, x => .object [cases.write x]
  | .openRecord _ fields, (x, extra) => .object (fields.write x ++ extra)

def Fields.write : (fields : Fields) → fields.Val → List (String × Json)
  | .nil, _ => []
  | .required key shape rest, (x, xs) => (key, shape.write x) :: rest.write xs
  | .optional key shape rest, (x, xs) =>
    (key, match x with | none => .null | some x => shape.write x) :: rest.write xs
  | .listed key item rest, (x, xs) =>
    (if x.isEmpty then [] else [(key, Json.list (x.map item.write))]) ++ rest.write xs

def Cases.write : (cases : Cases) → cases.Val → String × Json
  | .cons name fields _, .inl x => (name, .object (fields.write x))
  | .cons _ _ rest, .inr x => rest.write x

end

def Shape.readText (shape : Shape) (text : String) : Except Error shape.Val :=
  readAll shape.read text

end LintDelta.Json

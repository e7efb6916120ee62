import Bailout.Activation.Logical

/-!
# Filling restored objects

The compiler lists the sources of a described object in the order of its fields or elements, and
there may be more sources than values: a long or a double takes two, of which the second counts; two
neighbouring ints may be written as one 64-bit value, low half first; and in a byte array one source
may hold two, four or eight bytes, lowest first, with a marker for each further byte.
-/

namespace Bailout.Restore

/-- The low half of a word, as an int. -/
def lowHalf (w : Int64) : Int64 := w.toInt32.toInt64

/-- The high half of a word, as an int. -/
def highHalf (w : Int64) : Int64 := (w >>> 32).toInt32.toInt64

def sourceAt (d : Description) (rest : List Source) (skip : Nat) : Checked Source :=
  match rest[skip]? with
  | some s => return s
  | none => fatal (.noSource d.id d.klass.name (d.sources.length - rest.length + skip))

/-- Whether the remaining sources start with a 64-bit value for two ints. -/
def startsPair (d : Description) (rest : List Source) : Checked Bool := do
  match ← sourceAt d rest 0 with
  | .located l => return l.reading.isWide
  | .int _ => return (rest[1]?).any Source.isWideConstant
  | _ => return false

/-! ### Instances -/

/-- The fields that compiled code knows, each with its slot. -/
def visibleFields (k : Klass) (seesInjected : Bool) : List (Field × Nat) :=
  k.slots.filter fun f => seesInjected || !f.1.isInjected

/-- Which word goes into which slot. Every source has to be used. -/
def assignments (f : CompiledFrame) (t : Restored) (d : Description) :
    List (Field × Nat) → List Source → Checked (List (Nat × Word))
  | [], rest => do
    ensure rest.isEmpty (.unusedSources d.id)
    return []
  | (x, slot) :: fields, rest => do
    let value (skip : Nat) : Checked Word := do f.resolve t (← sourceAt d rest skip)
    match x.type with
    | .object | .array =>
      let w ← value 0
      return (slot, .ref w.object?) :: (← assignments f t d fields (rest.drop 1))
    | .int | .float =>
      let single : Checked (List (Nat × Word)) := do
        let w ← value 0
        return (slot, .raw (lowHalf w.bits)) :: (← assignments f t d fields (rest.drop 1))
      match fields with
      | (y, next) :: more =>
        if y.type = .int then
          if ← startsPair d rest then
            let w ← value 1
            return (slot, .raw (lowHalf w.bits)) :: (next, .raw (highHalf w.bits)) ::
              (← assignments f t d more (rest.drop 2))
          else single
        else single
      | [] => single
    | .long | .double =>
      let w ← value 1
      return (slot, .raw w.bits) :: (← assignments f t d fields (rest.drop 2))
    | .short | .char | .byte | .boolean =>
      let w ← value 0
      return (slot, .raw (x.type.truncate w.bits)) :: (← assignments f t d fields (rest.drop 1))
    | .void | .illegal => fatal (.fieldType x.name d.klass.name x.type)

/-- Write words into slots. -/
def writeSlots (slots : Array (Option Word)) (ws : List (Nat × Word)) : Array (Option Word) :=
  ws.foldl (fun ss w => ss.setIfInBounds w.1 (some w.2)) slots

/-! ### Arrays -/

def wideElements (f : CompiledFrame) (t : Restored) (d : Description) :
    List Source → Checked (List Int64)
  | [] => return []
  | [_] => fatal (.noSource d.id d.klass.name d.sources.length)
  | _ :: s :: rest => do
    let w ← f.resolve t s
    return w.bits :: (← wideElements f t d rest)

def intElements (f : CompiledFrame) (t : Restored) (d : Description) :
    List Source → Checked (List Int64)
  | [] => return []
  | s :: rest => do
    let single : Checked (List Int64) := do
      let w ← f.resolve t s
      return lowHalf w.bits :: (← intElements f t d rest)
    match rest with
    | [] => single
    | next :: more =>
      if ← startsPair d (s :: next :: more) then
        let w ← f.resolve t next
        return lowHalf w.bits :: highHalf w.bits :: (← intElements f t d more)
      else single

/-- Split the sources of a byte array into runs, given the source of the first run and how many
bytes it has so far. -/
def runsFrom (s : Source) (n : Nat) : List Source → List (Source × Nat)
  | [] => [(s, n)]
  | q :: qs => if q.isMarker then runsFrom s (n + 1) qs else (s, n) :: runsFrom q 1 qs

/-- The sources of a byte array, each with the number of bytes that it holds. -/
def runs : List Source → List (Source × Nat)
  | [] => []
  | s :: ss => runsFrom s 1 ss

/-- The first bytes of a word, lowest first. -/
def bytesOf (w : Int64) (count : Nat) : List Int64 :=
  (List.range count).map fun k => BasicType.truncate .byte (w >>> Int64.ofNat (8 * k))

/-- How many bytes one source can hold. -/
def runLengths : List Nat := [1, 2, 4, 8]

/-- The elements of an array of bytes from an index on. -/
def byteElements (f : CompiledFrame) (t : Restored) (index : Nat) :
    List (Source × Nat) → Checked (List Int64)
  | [] => return []
  | (s, count) :: rest => do
    guarantee (runLengths.contains count) (.byteRun count index)
    let w ← f.resolve t s
    return bytesOf w.bits count ++ (← byteElements f t (index + count) rest)

/-- The elements of an array with one source for each. -/
def plainElements (f : CompiledFrame) (t : Restored) (cut : Int64 → Int64) (ss : List Source) :
    Checked (List Int64) :=
  ss.mapM fun s => do return cut (← f.resolve t s).bits

def primitiveElements (f : CompiledFrame) (t : Restored) (d : Description) (ty : BasicType) :
    Checked (List Int64) :=
  match ty with
  | .long | .double => wideElements f t d d.sources
  | .int => intElements f t d d.sources
  | .float => plainElements f t lowHalf d.sources
  | .byte => byteElements f t 0 (runs d.sources)
  | .short | .char | .boolean => plainElements f t ty.truncate d.sources
  | .object | .array | .void | .illegal => do
    guarantee d.sources.isEmpty (.elementType ty)
    return []

def referenceElements (f : CompiledFrame) (t : Restored) (d : Description) :
    Checked (List (Option Ref)) :=
  d.sources.mapM fun s => do return (← f.resolve t s).object?

/-! ### Objects -/

/-- The body of a described object, given the one that it was allocated with. -/
def filledBody (f : CompiledFrame) (t : Restored) (d : Description) (old : Body) : Checked Body :=
  match d.klass with
  | .primitiveArray ty _ => do
    let es ← primitiveElements f t d ty
    return .primitives es.toArray
  | .referenceArray .. => do
    let es ← referenceElements f t d
    return .references es.toArray
  | k => do
    let ws ← assignments f t d (visibleFields k f.region.seesInjected) d.sources
    match old with
    | .fields slots => return .fields (writeSlots slots ws)
    | _ => return old

/-- Fill the object that stands for a described one. A shared box keeps what it has. -/
def fillOne (f : CompiledFrame) (t : Restored) (s : Store) (d : Description) : Checked Store :=
  if t.isCached d.id then return s
  else match t.get d.id with
    | none => return s
    | some r => do return s.setBody r (← filledBody f t d (s.body r))

/-- Fill the objects that stand for described ones. -/
def fill (f : CompiledFrame) (t : Restored) (s : Store) (ds : List Description) : Checked Store :=
  ds.foldlM (fillOne f t) s

end Bailout.Restore

import StaticScheduling.Instance.Basic

/-!
# Operand lists

The parenthesized list of an operation mixes operands with the names of
operations it merely comes after.  `Entry.split` takes such a list apart into
operands and dependence records, `Entry.join` puts it together again.
-/

namespace StaticScheduling

inductive Entry where
  /-- An operand, `%name`. -/
  | value (name : String) (properties : Option (List Property))
  /-- The source of an auxiliary dependence, `@name`. -/
  | symbol (name : String) (properties : Option (List Property))
deriving DecidableEq, Inhabited

namespace Entry

def operands : List Entry → List String
  | [] => []
  | .value name _ :: rest => name :: operands rest
  | .symbol _ _ :: rest => operands rest

/-- The dependence records of entries whose first has the given index.  An operand has a record
only if it has a property list, a symbol always has one. -/
def records (index : Nat) : List Entry → List DependenceRecord
  | [] => []
  | .value _ none :: rest => records (index + 1) rest
  | .value _ (some properties) :: rest =>
    ⟨.operand index, some properties⟩ :: records (index + 1) rest
  | .symbol name properties :: rest => ⟨.named index name, properties⟩ :: records (index + 1) rest

/-- Takes an operand list apart into operands and dependence records. -/
def split (entries : List Entry) : List String × List DependenceRecord :=
  (operands entries, records 0 entries)

def propertiesAt (records : List DependenceRecord) (index : Nat) : Option (List Property) :=
  (records.find? fun record => record.slot = .operand index).bind DependenceRecord.properties

/-- The entry of a record that names an operation. -/
def ofNamed? (record : DependenceRecord) : Option Entry :=
  record.slot.source?.map fun source => .symbol source record.properties

/-- Puts an operand list together: the operands with their properties, then the named records. -/
def join (operands : List String) (records : List DependenceRecord) : List Entry :=
  operands.mapIdx (fun index name => .value name (propertiesAt records index))
    ++ records.filterMap ofNamed?

end Entry

/-- What is wrong with the dependence records of an operation. -/
inductive RecordFault where
  | outOfBounds (index operands : Nat)
  | notIncreasing (index : Nat)
  | interleaved (source : String)
  | notConsecutive (source : String) (index : Nat)
deriving DecidableEq, Repr, Inhabited

def RecordFault.text : RecordFault → String
  | .outOfBounds index operands =>
    "operand index " ++ toString index ++ " is out of bounds (" ++ toString operands ++ " operands)"
  | .notIncreasing index => "operand index " ++ toString index ++ " is not in increasing order"
  | .interleaved source =>
    "auxiliary dependence from " ++ symbolText source ++ " is interleaved with operands"
  | .notConsecutive source index =>
    "auxiliary dependence from " ++ symbolText source ++ " has non-consecutive index "
      ++ toString index

namespace DependenceRecord

/-- Whether `index` comes after the last index, if there is a last one. -/
def comesAfter (last : Option Nat) (index : Nat) : Bool := last.all (· < index)

/-- What is wrong with one record behind a record with index `last`. -/
def fault? (operands : Nat) (last : Option Nat) (record : DependenceRecord) : Option RecordFault :=
  match record.slot with
  | .operand index =>
    if operands ≤ index then some (.outOfBounds index operands)
    else if comesAfter last index then none
    else some (.notIncreasing index)
  | .named index source =>
    -- the indices of operands are not for sources
    if index < operands then some (.interleaved source)
    -- the next index, or the first one that is no operand
    else if last.any (index = · + 1) || (comesAfter last index && index = operands) then none
    else some (.notConsecutive source index)

/-- The first fault of records behind a record with index `last`. -/
def firstFault? (operands : Nat) (last : Option Nat) : List DependenceRecord → Option RecordFault
  | [] => none
  | record :: rest =>
    match record.fault? operands last with
    | some fault => some fault
    | none => firstFault? operands (some record.slot.index) rest

end DependenceRecord

/-- The first fault of an operation's records: operands must come in increasing order and below
their count, then named sources numbered on from that count. -/
def recordFault? (operands : Nat) (records : List DependenceRecord) : Option RecordFault :=
  DependenceRecord.firstFault? operands none records

end StaticScheduling

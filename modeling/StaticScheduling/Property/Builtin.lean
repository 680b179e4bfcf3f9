import StaticScheduling.Property.Kind

/-!
# The properties of scheduling problems

The properties `#ssp.link`, `#ssp.start_time`, `#ssp.latency`, `#ssp.limit`,
`#ssp.distance` and `#ssp.II`, and the lists of kinds that belong to the known
names of problems.
-/

namespace StaticScheduling

/-- The 32-bit number that a 64-bit integer is, if it is in range. -/
def word32? (number : Int64) : Option UInt32 :=
  if 0 ≤ number.toInt ∧ number.toInt < UInt32.size then some (UInt32.ofNat number.toInt.toNat)
  else none

namespace Property

/-- The number in `#ssp.mnemonic<number>`, if the property is of this form and in range. -/
def number? (mnemonic : String) (property : Property) : Option UInt32 :=
  if property.isNamed schedulingDialect mnemonic then
    (property.single?.bind Parameter.integer?).bind word32?
  else
    none

/-- The property `#ssp.mnemonic<number>`. -/
def ofNumber (mnemonic : String) (number : UInt32) : Property :=
  ⟨schedulingDialect, mnemonic, [.integer (Int64.ofInt number.toNat)]⟩

/-- The symbol in `#ssp.link<@symbol>`, if the property is of this form. -/
def linkTarget? (property : Property) : Option String :=
  if property.isLink then property.single?.bind Parameter.symbol? else none

end Property

namespace PropertyKind

/-- A kind whose properties hold one number.  It refuses what it does not accept. -/
def ofNumber {Point : Type} (name mnemonic : String) (label : Point → String)
    (set : Problem → Point → UInt32 → Except DocumentError Problem)
    (get : Problem → Point → Option UInt32) : PropertyKind Point where
  name := name
  accepts property := (property.number? mnemonic).isSome
  install problem point property :=
    match property.number? mnemonic with
    | some number => Edited.ofExcept problem (set problem point number)
    | none => (problem, .error (.unrecognizedProperty (label point) property))
  query problem point := (get problem point).map (Property.ofNumber mnemonic)

/-- `#ssp.link<@type>`: the operator type an operation is linked to. -/
def link : PropertyKind OperationId where
  name := "link"
  accepts property := property.linkTarget?.isSome
  install problem point property :=
    match property.linkTarget? with
    | some target =>
      Edited.ofExcept problem
        (ProblemError.within (problem.setLink point ⟨target⟩) (.linking point))
    | none => (problem, .error (.unrecognizedProperty point.text property))
  query problem point :=
    (problem.link point).map fun operatorType =>
      ⟨schedulingDialect, "link", [.symbol operatorType.name]⟩

/-- `#ssp.start_time<n>`: when an operation starts. -/
def startTime : PropertyKind OperationId :=
  ofNumber "start_time" "start_time" OperationId.text
    (fun problem point number =>
      ProblemError.within (problem.setStartTime point number) (.scheduling point))
    Problem.startTime

/-- `#ssp.latency<n>`: how long an operator type takes. -/
def latency : PropertyKind OperatorType :=
  ofNumber "latency" "latency" OperatorType.text
    (fun problem point number => .ok (problem.setLatency point number)) Problem.latency

/-- `#ssp.limit<n>`: how many operations may use an operator type at a time. -/
def limit : PropertyKind OperatorType :=
  ofNumber "limit" "limit" OperatorType.text
    (fun problem point number => .ok (problem.setLimit point number)) Problem.limit

/-- `#ssp.distance<n>`: how many iterations a dependence spans. -/
def distance : PropertyKind Dependence :=
  ofNumber "distance" "distance" Dependence.text
    (fun problem point number =>
      ProblemError.within (problem.setDistance point number) .settingDistance)
    Problem.distance

/-- `#ssp.II<n>`: the initiation interval. -/
def initiationInterval : PropertyKind Unit :=
  ofNumber "initiation_interval" "II" (fun _ => "instance")
    (fun problem _ number => .ok (problem.setInitiationInterval number))
    (fun problem _ => problem.initiationInterval)

/-- Reads `#ssp.latency<n>` as a limit.  Installed directly it takes any property: the limit is its
number cut to 32 bits, or zero if it does not hold exactly one number.  It never answers a query. -/
def latencyAsLimit : PropertyKind OperatorType where
  name := "latency-as-limit"
  accepts := latency.accepts
  install problem point property :=
    let number := (property.single?.bind Parameter.integer?).getD 0
    (problem.setLimit point number.toUInt64.toUInt32, .ok ())
  query _ _ := none

def ofOperations : List (PropertyKind OperationId) := [link, startTime]

def ofOperatorTypes : List (PropertyKind OperatorType) := [latency, limit, latencyAsLimit]

def ofDependences : List (PropertyKind Dependence) := [distance]

def ofInstances : List (PropertyKind Unit) := [initiationInterval]

def named? {Point : Type} (kinds : List (PropertyKind Point)) (name : String) :
    Option (PropertyKind Point) :=
  kinds.find? fun kind => kind.name = name

end PropertyKind

/-- The lists of kinds for all attachment points. -/
structure ProblemKinds where
  operation : List (PropertyKind OperationId)
  operatorType : List (PropertyKind OperatorType)
  dependence : List (PropertyKind Dependence)
  problem : List (PropertyKind Unit)

namespace ProblemKinds

def none : ProblemKinds := ⟨[], [], [], []⟩

instance : Inhabited ProblemKinds := ⟨none⟩

/-- Operations are linked and scheduled, operator types have latencies. -/
def acyclic : ProblemKinds :=
  ⟨[PropertyKind.link, PropertyKind.startTime], [PropertyKind.latency], [], []⟩

/-- Also dependences have distances and there is an initiation interval. -/
def cyclic : ProblemKinds :=
  { acyclic with
    dependence := [PropertyKind.distance], problem := [PropertyKind.initiationInterval] }

/-- Operator types have latencies and limits. -/
def sharedOperators : ProblemKinds :=
  { acyclic with operatorType := [PropertyKind.latency, PropertyKind.limit] }

/-- All of these. -/
def modulo : ProblemKinds :=
  { cyclic with operatorType := [PropertyKind.latency, PropertyKind.limit] }

/-- The kinds that belong to the name of a problem in a document. -/
def ofProblemName? (name : String) : Option ProblemKinds :=
  if name = "Problem" then some acyclic
  else if name = "CyclicProblem" then some cyclic
  else if name = "SharedOperatorsProblem" then some sharedOperators
  else if name = "ModuloProblem" then some modulo
  else Option.none

end ProblemKinds

end StaticScheduling

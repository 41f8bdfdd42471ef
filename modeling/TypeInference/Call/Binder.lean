import TypeInference.Declaration
import TypeInference.Deferred
import TypeInference.Diagnostic

/-!
# Binding a call to parameters

The arguments of a call arrive as a stream of values, some of them named by a
keyword.  The binder takes the parameters of a function one after another and
gives each of them a deferred value:

* positional values fill positional parameters in order,
* a keyword fills the parameter of that name,
* a starred parameter collects the positional values that are left,
* a double-starred parameter collects the keywords that name no parameter,
* a parameter that is given nothing has its default, or is unknown.

A parameter that is supplied twice keeps its place and widens to all of its
values.  Binding always succeeds, and lists what is wrong with the call.
-/

namespace TypeInference

/-- A value of a call, named by a keyword or by its position. -/
structure Supplied where
  keyword : Option String
  value : Deferred

/-- A parameter together with the value that a call gives it. -/
structure BoundParameter where
  function : FunctionId
  index : Nat
  name : String
  kind : ParameterKind
  value : Deferred
  isDefault : Bool

/-! ## Problems of a call -/

def countMessage (declaration : FunctionDeclaration) (given : Nat) : String :=
  let total := declaration.parameters.length
  let required := declaration.parameters.countP (fun parameter => parameter.isRequired)
  let before :=
    if required = total then "exactly " else "from " ++ toString required ++ " to "
  "TypeError: " ++ declaration.name ++ "() takes " ++ before ++ toString total ++
    " arguments (" ++ toString given ++ " given)."

namespace Diagnostic

/-- A required parameter is given nothing. -/
def tooFew (declaration : FunctionDeclaration) (given : Nat) (node : Option NodeId) : Diagnostic :=
  ⟨.tooFewArguments, node, countMessage declaration given⟩

/-- A positional value is left over. -/
def tooMany (declaration : FunctionDeclaration) (given : Nat) (node : Option NodeId) :
    Diagnostic :=
  ⟨.tooManyArguments, node, countMessage declaration given⟩

/-- A parameter is supplied twice. -/
def repetition (declaration : FunctionDeclaration) (keyword : String) (node : Option NodeId) :
    Diagnostic :=
  ⟨.multipleValues, node,
    "TypeError: " ++ declaration.name ++ "() got multiple values for keyword argument '" ++
      keyword ++ "'."⟩

/-- A keyword names no parameter. -/
def unexpected (declaration : FunctionDeclaration) (keyword : String) (node : Option NodeId) :
    Diagnostic :=
  ⟨.unexpectedKeyword, node,
    "TypeError: " ++ declaration.name ++ "() got an unexpected keyword argument '" ++
      keyword ++ "'."⟩

end Diagnostic

/-! ## Binders -/

def modifyFirst {α : Type} (condition : α → Bool) (change : α → α) : List α → List α
  | [] => []
  | entry :: rest =>
    if condition entry then change entry :: rest else entry :: modifyFirst condition change rest

/-- The state of binding one call. -/
structure Binder where
  function : FunctionId
  declaration : FunctionDeclaration
  callSite : Option NodeId
  /-- Number of values that the call supplies. -/
  given : Nat
  /-- The values that are still ahead. -/
  stream : List Supplied
  result : List BoundParameter := []
  /-- The parameters that were supplied a value, by name. -/
  used : Table String BoundParameter := ∅
  /-- The keywords that name no parameter. -/
  unmatched : Table String Deferred := ∅
  sawKeyword : Bool := false
  sawRepetition : Bool := false
  issues : List Diagnostic := []
  nextCell : Nat

namespace Binder

/-! ## Noting problems -/

def report (binder : Binder) (diagnostic : Diagnostic) : Binder :=
  { binder with issues := binder.issues ++ [diagnostic] }

def reportTooFew (binder : Binder) : Binder :=
  binder.report (.tooFew binder.declaration binder.given binder.callSite)

def reportTooMany (binder : Binder) (first : Deferred) : Binder :=
  binder.report
    (.tooMany binder.declaration binder.given (first.node?.or binder.callSite))

def reportRepetition (binder : Binder) (keyword : String) : Binder :=
  binder.report (.repetition binder.declaration keyword binder.callSite)

def reportUnexpected (binder : Binder) (keyword : String) (value : Deferred) : Binder :=
  binder.report (.unexpected binder.declaration keyword (value.node?.or binder.callSite))

/-! ## Keywords -/

/-- Widen a parameter that already has a value. -/
def widen (binder : Binder) (keyword : String) (index : Nat) (existing : BoundParameter)
    (value : Deferred) : Binder :=
  let widened := Deferred.merged ⟨binder.nextCell⟩ [existing.value, value]
  { binder.reportRepetition keyword with
    sawRepetition := true
    used := binder.used.insert keyword { existing with value := widened }
    result := modifyFirst (fun bound => bound.index == index)
      (fun bound => { bound with value := widened }) binder.result
    nextCell := binder.nextCell + 1 }

/-- Give a parameter its first value, in place of a default it may have. -/
def supply (binder : Binder) (parameter : Parameter) (index : Nat) (value : Deferred) : Binder :=
  let bound : BoundParameter :=
    ⟨binder.function, index, parameter.name, parameter.kind, value, false⟩
  { binder with
    used := binder.used.insert parameter.name bound
    result := modifyFirst (fun present => present.index == index && present.isDefault)
      (fun _ => bound) binder.result }

def bindKeyword (binder : Binder) (keyword : String) (value : Deferred) : Binder :=
  let binder := { binder with sawKeyword := true }
  match binder.declaration.parameter? keyword with
  | none => { binder with unmatched := binder.unmatched.insert keyword value }
  | some (parameter, index) =>
    match binder.used.get? keyword with
    | some existing => binder.widen keyword index existing value
    | none => binder.supply parameter index value

def bindNamed (binder : Binder) (supplied : Supplied) : Binder :=
  match supplied.keyword with
  | some keyword => binder.bindKeyword keyword supplied.value
  | none => binder

/-- Bind the keywords at the front of a stream, and leave the rest ahead. -/
def bindLeadingKeywords (binder : Binder) : List Supplied → Binder
  | [] => { binder with stream := [] }
  | supplied :: rest =>
    match supplied.keyword with
    | some keyword => (binder.bindKeyword keyword supplied.value).bindLeadingKeywords rest
    | none => { binder with stream := supplied :: rest }

/-- Bind every keyword that is ahead, and leave the positional values in their order. -/
def drainKeywords (binder : Binder) : Binder :=
  let bound := binder.stream.foldl bindNamed binder
  { bound with stream := binder.stream.filter (fun supplied => supplied.keyword.isNone) }

/-! ## Parameters -/

def append (binder : Binder) (bound : BoundParameter) : Binder :=
  { binder with result := binder.result ++ [bound] }

def bindValue (binder : Binder) (parameter : Parameter) (index : Nat) (value : Deferred) :
    Binder :=
  let bound : BoundParameter :=
    ⟨binder.function, index, parameter.name, parameter.kind, value, false⟩
  { binder.append bound with used := binder.used.insert parameter.name bound }

def bindMissing (binder : Binder) (parameter : Parameter) (index : Nat) : Binder :=
  let cell : CellId := ⟨binder.nextCell⟩
  let binder := { binder with nextCell := binder.nextCell + 1 }
  match parameter.default with
  | some default =>
    binder.append
      ⟨binder.function, index, parameter.name, parameter.kind, .node cell default, true⟩
  | none =>
    (if binder.sawKeyword then binder else binder.reportTooFew).append
      ⟨binder.function, index, parameter.name, parameter.kind, .unknown cell, false⟩

/-- Bind a starred parameter to the positional values at the front of the stream. -/
def bindStarred (binder : Binder) (parameter : Parameter) (index : Nat) : Binder :=
  let isPositional (supplied : Supplied) := supplied.keyword.isNone
  let items := (binder.stream.takeWhile isPositional).map (fun supplied => supplied.value)
  let binder := { binder with stream := binder.stream.dropWhile isPositional }
  { binder with nextCell := binder.nextCell + 1 }.bindValue parameter index
    (.packedTuple ⟨binder.nextCell⟩ items)

/-- Bind a double-starred parameter to the keywords that name no parameter. -/
def bindDoubleStarred (binder : Binder) (parameter : Parameter) (index : Nat) : Binder :=
  { binder with nextCell := binder.nextCell + 1, unmatched := ∅ }.bindValue parameter index
    (.packedDict ⟨binder.nextCell⟩ binder.unmatched.entries)

def bindUnused (binder : Binder) (parameter : Parameter) (index : Nat) : Binder :=
  match parameter.kind with
  | .starred => binder.bindStarred parameter index
  | .doubleStarred => binder.bindDoubleStarred parameter index
  | .keywordOnly => binder.bindMissing parameter index
  | .positional =>
    match binder.stream with
    | [] => binder.bindMissing parameter index
    | supplied :: rest =>
      { binder with stream := rest }.bindValue parameter index supplied.value

/--
Bind the keywords that a parameter has to know of.  A keyword-only or
double-starred parameter never takes a positional value, so the keywords behind
a positional value that is left over still belong to it.
-/
def prepare (binder : Binder) (kind : ParameterKind) : Binder :=
  let binder := binder.bindLeadingKeywords binder.stream
  match kind with
  | .keywordOnly | .doubleStarred => binder.drainKeywords
  | .positional | .starred => binder

def bindParameter (binder : Binder) (entry : Parameter × Nat) : Binder :=
  let binder := binder.prepare entry.1.kind
  match binder.used.get? entry.1.name with
  | some bound => binder.append bound
  | none => binder.bindUnused entry.1 entry.2

/-! ## The whole call -/

/-- Note the required parameters that no keyword and no position supplied. -/
def reportMissing (binder : Binder) : Binder :=
  if binder.sawKeyword && binder.unmatched.isEmpty && !binder.sawRepetition then
    binder.declaration.parameters.foldl
      (fun binder parameter =>
        if parameter.isRequired && !binder.used.contains parameter.name then binder.reportTooFew
        else binder)
      binder
  else binder

def reportUnmatched (binder : Binder) : Binder :=
  binder.unmatched.entries.foldl
    (fun binder entry => binder.reportUnexpected entry.1 entry.2) binder

/-- Note the first positional value that is left over. -/
def reportSurplus (binder : Binder) : Binder :=
  match binder.stream with
  | [] => binder
  | surplus :: _ => binder.reportTooMany surplus.value

/-- Bind what is left of the stream and note what is wrong with the call as a whole. -/
def finish (binder : Binder) : Binder :=
  binder.drainKeywords.reportMissing.reportUnmatched.reportSurplus

def start (function : FunctionId) (declaration : FunctionDeclaration) (callSite : Option NodeId)
    (stream : List Supplied) (nextCell : Nat) : Binder :=
  { function, declaration, callSite, given := stream.length, stream, nextCell }

def bindStream (function : FunctionId) (declaration : FunctionDeclaration)
    (callSite : Option NodeId) (stream : List Supplied) (nextCell : Nat) : Binder :=
  (declaration.parameters.zipIdx.foldl bindParameter
    (start function declaration callSite stream nextCell)).finish

end Binder

end TypeInference

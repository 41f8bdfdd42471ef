import TypeInference.Clinic
import TypeInference.Declaration
import TypeInference.Diagnostic
import TypeInference.Guard.Budget
import TypeInference.Substitution

/-!
# Events

Inference never fails.  Where it cannot proceed, or takes a decision that a reader
of its results may want to know of, it leaves an event.
-/

namespace TypeInference

/-- How much attention an event deserves, the most first. -/
inductive Level where
  | warn
  | debug
  | trace
deriving DecidableEq

namespace Level

def name : Level → String
  | warn => "WARN"
  | debug => "DEBUG"
  | trace => "TRACE"

def ofName? (name : String) : Option Level :=
  [warn, debug, trace].find? (fun level => level.name == name)

def rank : Level → Nat
  | warn => 0
  | debug => 1
  | trace => 2

/-- Whether an event of a level shows where events of another level just do. -/
def shows (least level : Level) : Bool :=
  level.rank ≤ least.rank

end Level

/-- The work that one request performed. -/
structure Counters where
  unifications : Nat := 0
  memoHits : Nat := 0
  memoMisses : Nat := 0
  refusals : Nat := 0
  nodeInferences : Nat := 0
deriving DecidableEq, Inhabited

/-- What happened during inference. -/
inductive Event where
  | nodeRecursion (node : NodeId)
  | refused (reason : Refusal) (settings : Settings) (function : FunctionId)
  | unificationTooDeep (depth : Nat)
  | instancesTooDeep (depth : Nat)
  | comparisonTooDeep (depth : Nat) (hint : String)
  | unresolvedReference (node : NodeId) (source : String)
  | subscriptResolved (node : NodeId) (slots : Nat)
  | unresolvedVariable (name : String)
  | anyExecuted
  | notCallable (value : String)
  | notSubscriptable (value : String)
  | overloadSelected (function : FunctionId)
  | recursiveReturn (function : String)
  | bodyEntered (function : String) (depth : Nat)
  | bodyLeft (function : String) (depth : Nat)
  | incompleteCallable (slots : Nat)
  | unknownKey (class_ key : String)
  | opaqueMapping (class_ : String)
  | argumentCompared (parameter : String) (accepted : Bool)
  | signatureMismatch (behavior : BuiltinBehavior) (issue : Clinic.Issue)
  | variablesInferred (function : String) (bindings : Substitution)
  | diagnosed (diagnostic : Diagnostic)
  | finished (counters : Counters)

namespace Event

def level : Event → Level
  | nodeRecursion _ | refused _ _ _ | unificationTooDeep _ | instancesTooDeep _
  | comparisonTooDeep _ _ => .warn
  | subscriptResolved _ _ | overloadSelected _ | argumentCompared _ _
  | variablesInferred _ _ => .trace
  | unresolvedReference _ _ | unresolvedVariable _ | anyExecuted | notCallable _
  | notSubscriptable _ | recursiveReturn _ | bodyEntered _ _ | bodyLeft _ _
  | incompleteCallable _ | unknownKey _ _ | opaqueMapping _ | signatureMismatch _ _
  | diagnosed _ | finished _ => .debug

def functionField (function : FunctionId) : String × String :=
  ("function", "FunctionId(" ++ toString function.index ++ ")")

def placeText : Option NodeId → String
  | some node => "Some(NodeId(" ++ toString node.index ++ "))"
  | none => "None"

def refusalFields (settings : Settings) (function : FunctionId) :
    Refusal → String × List (String × String)
  | .depth => ("Recursion limit reached", [("limit", toString settings.recursionLimit)])
  | .total =>
    ("Function execution limit reached", [("limit", toString settings.totalExecutionLimit)])
  | .function =>
    ("Per function execution limit reached",
      [("limit", toString settings.functionExecutionLimit), functionField function])
  | .functionRecursion =>
    ("Per function recursion limit reached",
      [("limit", toString settings.functionRecursionLimit), functionField function])

def counterFields (counters : Counters) : List (String × String) :=
  [("unify_calls", toString counters.unifications), ("memo_hits", toString counters.memoHits),
    ("memo_misses", toString counters.memoMisses), ("refused", toString counters.refusals),
    ("nodes", toString counters.nodeInferences)]

def content : Event → String × List (String × String)
  | nodeRecursion node => ("Caught statement recursion", [("node", node.text)])
  | refused reason settings function => refusalFields settings function reason
  | unificationTooDeep depth => ("Unification depth limit reached", [("depth", toString depth)])
  | instancesTooDeep depth =>
    ("Annotation execution depth limit reached", [("depth", toString depth)])
  | comparisonTooDeep depth hint =>
    ("Annotation nesting limit reached", [("depth", toString depth), ("annotation", hint)])
  | unresolvedReference node source =>
    ("Unresolvable forward reference", [("node", node.text), ("source", source)])
  | subscriptResolved node slots =>
    ("Resolved lazy generics", [("node", node.text), ("slots", toString slots)])
  | unresolvedVariable name => ("Unresolved type variable", [("type_var", name)])
  | anyExecuted => ("Executing Any yields nothing", [])
  | notCallable value => ("Value is not callable", [("value", value)])
  | notSubscriptable value => ("Value is not subscriptable", [("value", value)])
  | overloadSelected function => ("Selected overload", [functionField function])
  | recursiveReturn function => ("Recursive return inference", [("function", function)])
  | bodyEntered function depth | bodyLeft function depth =>
    ("", [("function", function), ("depth", toString depth)])
  | incompleteCallable slots =>
    ("Callable defined without parameters and return type", [("slots", toString slots)])
  | unknownKey class_ key => ("Unknown TypedDict key", [("class", class_), ("key", key)])
  | opaqueMapping class_ => ("Ignoring ** of an opaque mapping", [("class", class_)])
  | argumentCompared parameter accepted =>
    ("Compared argument against annotation",
      [("param", parameter), ("matches", if accepted then "true" else "false")])
  | signatureMismatch behavior issue =>
    ("Builtin call does not match its signature",
      [("behavior", behavior.name), ("issue", issue.message)])
  | variablesInferred function bindings =>
    ("Inferred type variables", [("function", function), ("bindings", bindings.text)])
  | diagnosed diagnostic =>
    ("Argument diagnostic",
      [("code", diagnostic.kind.code), ("node", placeText diagnostic.node),
        ("message", diagnostic.message)])
  | finished counters => ("Inference request finished", counterFields counters)

def heading : Event → List String
  | bodyEntered _ _ => ["ENTER execute"]
  | bodyLeft _ _ => ["EXIT execute"]
  | event => [event.level.name, "message=" ++ event.content.1]

def line (event : Event) : String :=
  let fields := event.content.2.map (fun field => field.1 ++ "=" ++ field.2)
  " | ".intercalate (event.heading ++ fields)

end Event

end TypeInference

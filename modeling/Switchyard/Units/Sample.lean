import Switchyard.Units.Function

/-!
# Sample functions

One function for each way of declaring parameters that matters for how a function is called as a
unit. Most of them answer with the values of their parameters.
-/

namespace Switchyard.Units

/-- The arguments that the parameter took which takes all of them, as a list. -/
def allArguments (bound : List (String × Value)) : Value :=
  match bound.lookup Function.argumentsName with
  | some (.tuple args) => .list args
  | _ => .null

/-- A default that shows that no argument came. -/
def unset : Option Value := some (.text "unset")

def sampleFunctions : List (String × Function) :=
  [("one",
      { parameters := some [{ name := "config" }], result := Value.record
        note := "  Takes the config only.\n        " }),
    ("two",
      { parameters := some [{ name := "config" }, { name := "context" }], result := Value.record }),
    ("default",
      { parameters := some [{ name := "config" }, { name := "context", default := unset }]
        result := Value.record
        note := "Second argument has a default." }),
    ("varargs",
      { parameters := some [{ name := Function.argumentsName, kind := .rest }]
        result := allArguments }),
    ("kwonly",
      { parameters :=
          some [{ name := "config" }, { name := "context", kind := .named, default := unset }]
        result := Value.record }),
    ("kwargs",
      { parameters := some [{ name := "config" }, { name := "rest", kind := .others }]
        result := Value.record }),
    ("zero", { parameters := some [], result := Value.record }),
    ("opaque", { parameters := none, result := allArguments })]

end Switchyard.Units

import RequestSigning.CommandLine.Usage
set_option autoImplicit false

namespace RequestSigning.CommandLine

/-- Settings with their values, in the order in which they were found. -/
structure Given where
  entries : List (Setting × String)
  deriving Repr, DecidableEq

namespace Given

def values (given : Given) (setting : Setting) : List String :=
  given.entries.filterMap fun (key, value) => if key = setting then some value else none

def get? (given : Given) (setting : Setting) : Option String :=
  (given.values setting).head?

def has (given : Given) (setting : Setting) : Bool :=
  (given.get? setting).isSome

/-- That a setting is repeated comes before what is wrong with its value. -/
def add (given : Given) (setting : Setting) (value : String) : Except UsageFault Given := do
  if given.has setting && !setting.isRepeatable then throw (.repeated setting)
  setting.check value
  return ⟨given.entries ++ [(setting, value)]⟩

/-- Adds the environment's value where there is none yet. -/
def addVariable (environment : String → Option String) (given : Given) (setting : Setting) :
    Except UsageFault Given :=
  match setting.variableName?.bind environment with
  | some value => if given.has setting then .ok given else given.add setting value
  | none => .ok given

def addVariables (environment : String → Option String) (given : Given) :
    Except UsageFault Given :=
  Setting.all.foldlM (addVariable environment) given

/-- The first setting whose rival is there, too. -/
def conflict? (given : Given) : Option UsageFault :=
  given.entries.findSome? fun (setting, _) =>
    (setting.rival?.filter given.has).map (.conflict setting)

def missing (given : Given) : List Setting :=
  Setting.all.filter fun setting => setting.isRequired && !given.has setting

end Given

end RequestSigning.CommandLine

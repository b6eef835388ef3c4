-- SUMMARY: All built-in definitions, and the engine that uses them.
import EpcTag.Builtin.Gs1
import EpcTag.Builtin.Dod
import EpcTag.Engine.Basic

/-!
# Built-in definitions

The definitions that an engine uses if it is given no others.
-/

namespace EpcTag

/-- The built-in definitions: the GS1 schemes, the general identifier and the
    identifiers of the Department of Defense. -/
def Builtin.definitions : List SchemeDocument :=
  Builtin.gs1Definitions ++ Builtin.gidDefinitions ++ Builtin.dodDefinitions

/-- The built-in definition of a name. -/
def Builtin.definition? (name : Text) : Option SchemeDocument :=
  Builtin.definitions.find? (·.name == some (.text name))

/-- The engine of the built-in schemes. -/
def Engine.builtin (settings : Engine.Settings) : Traced Engine :=
  Engine.ofDocuments Builtin.definitions settings

end EpcTag

-- SUMMARY: The five kinds of representation level.
import EpcTag.Text.Basic

/-!
# Level types

An EPC has up to five representations: the bits on a tag, the tag URI, the pure
identity URI, the legacy element string and the ONS host name.
-/

namespace EpcTag

inductive LevelType where
  | binary
  | tagEncoding
  | pureIdentity
  | legacy
  | onsHostname
  deriving DecidableEq, Repr

namespace LevelType

/-- All level types, in the order in which a search goes through them. -/
def all : List LevelType := [.binary, .tagEncoding, .pureIdentity, .legacy, .onsHostname]

def name : LevelType → Text
  | .binary => "BINARY"
  | .tagEncoding => "TAG_ENCODING"
  | .pureIdentity => "PURE_IDENTITY"
  | .legacy => "LEGACY"
  | .onsHostname => "ONS_HOSTNAME"

/-- The level type of the given name. -/
def ofName? (text : Text) : Option LevelType := all.find? (·.name == text)

/-- Is the option of an input at this level found from its pattern alone? -/
def selfDescribing : LevelType → Bool
  | .binary | .tagEncoding | .pureIdentity => true
  | .legacy | .onsHostname => false

/-- Are the values of this level URIs, whose fields are escaped? -/
def isUri : LevelType → Bool
  | .tagEncoding | .pureIdentity => true
  | _ => false

theorem mem_all (level : LevelType) : level ∈ all := by cases level <;> decide

@[simp] theorem ofName?_name (level : LevelType) : ofName? level.name = some level := by
  cases level <;> decide

theorem name_injective {a b : LevelType} (h : a.name = b.name) : a = b := by
  have := congrArg ofName? h
  simpa using this

theorem name_eq_of_ofName? {text : Text} {level : LevelType} (h : ofName? text = some level) :
    level.name = text := by
  simpa using List.find?_some h

end LevelType

end EpcTag

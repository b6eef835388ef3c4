-- SUMMARY: The general identifier GID-96.
import EpcTag.Builtin.Basic

/-!
# General identifiers

A general identifier has a manager number, a class and a serial number, which
take fixed parts of the tag:

    header | general manager | object class | serial

The scheme has a single option.
-/

namespace EpcTag.Builtin

/-- The option key of schemes with a single option, which is also the key of the
    option. -/
def singleKey : Text := "1"

/-- The fields of a general identifier with their bits. -/
def gidParts : List (Text × Nat) := [("generalmanager", 28), ("objectclass", 24), ("serial", 36)]

/-- The names of the fields of a general identifier. -/
def gidNames : List Text := gidParts.map (·.1)

/-- The fields as decimal text. -/
def gidTextFields : List FieldDocument :=
  gidParts.zipIdx.map fun ((name, width), place) => number name (place + 1) (Nat.pow 2 width - 1)

/-- The option of a URI that starts with the given text and a colon. -/
def gidUriOption (start : Text) : OptionDocument :=
  option singleKey
    (anchored (Text.join [start, ":", Text.joinWith "\\." (gidParts.map fun _ => numberPattern)]))
    (Text.join [literal (start ++ [':']), " ", Text.joinWith " '.' " gidNames])
    gidTextFields

/-- The header of a tag with a general identifier. -/
def gidHeader : Text := "00110101"

/-- The option of the bits of a tag. -/
def gidBinaryOption : OptionDocument :=
  option singleKey
    (anchored (gidHeader ++ Text.join (gidParts.map fun (_, width) => bitGroup width)))
    (Text.joinWith [' '] (literal gidHeader :: gidNames))
    (gidParts.zipIdx.map fun ((name, width), place) => bits name (place + 1) width)

/-- The option of an element string. -/
def gidLegacyOption : OptionDocument :=
  option singleKey
    (anchored (Text.joinWith [';'] (gidNames.map fun name =>
      Text.join [name, "=", numberPattern])))
    (Text.joinWith " ';' " (gidNames.map fun name =>
      Text.join [literal (name ++ ['=']), " ", name]))
    gidTextFields

def gid96 : SchemeDocument :=
  scheme "GID-96" 96 singleKey
    [level .binary gidHeader [gidBinaryOption] [],
     level .tagEncoding "urn:epc:tag:gid-96" [gidUriOption "urn:epc:tag:gid-96"] [],
     level .pureIdentity "urn:epc:id:gid" [gidUriOption "urn:epc:id:gid"] [],
     level .legacy "generalmanager=" [gidLegacyOption] []]

/-- The definition of the general identifier. -/
def gidDefinitions : List SchemeDocument := [gid96]

end EpcTag.Builtin

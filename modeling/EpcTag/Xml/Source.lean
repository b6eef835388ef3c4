-- SUMMARY: Documents that come under a name, and the errors of reading them.
import EpcTag.Error
import EpcTag.Xml.Document

/-!
# Sources

A document comes from a source with a name, such as the path of a file. The name
is all that the error of a malformed document tells.
-/

namespace EpcTag.Xml

structure Source where
  name : Text
  document : Text
  deriving DecidableEq, Repr

/-- The element at the top of the document of a source. -/
def Source.element (source : Source) : Except Error Element :=
  match parse source.document with
  | .ok element => .ok element
  | .error .malformed => .error (.definition (.unreadableXml source.name))
  | .error (.unknownEncoding name) => .error (.fault (.unknownEncoding name))
  | .error (.wideEncoding name) => .error (.fault (.wideEncoding name))

end EpcTag.Xml

import SigmaCatalog.Rest.Host
import SigmaCatalog.Rest.Path

/-!
# Reading paths

A segment of a path spells octets: a percent sign with two digits spells one octet, and every other
character the octets of its own.  The name that a segment stands for is the text of its octets.
-/

namespace SigmaCatalog.Rest

/-- The octets that a segment spells. -/
def segmentOctets : List Char → List UInt8
  | '%' :: high :: low :: rest =>
    match Host.digit? 16 high, Host.digit? 16 low with
    | some h, some l => UInt8.ofNat (h * 16 + l) :: segmentOctets rest
    | _, _ => ("%".toUTF8.toList) ++ segmentOctets (high :: low :: rest)
  | c :: rest => (String.singleton c).toUTF8.toList ++ segmentOctets rest
  | [] => []

/-- The name that a segment stands for, if its octets are those of a text. -/
def segmentName? (segment : String) : Option String :=
  String.fromUTF8? (segmentOctets segment.toList).toByteArray

namespace Path

/-- The names that the segments of a path stand for. -/
def names? (path : Path) : Option (List String) :=
  path.segments.mapM segmentName?

end Path

end SigmaCatalog.Rest

/-!
# The order of texts

Texts are ordered by their code points, which is the order of their bytes in UTF-8.
-/

namespace WorkspaceLint

namespace Text

/-- Whether a text comes before another one. -/
def before (s t : String) : Bool := s.toList < t.toList

end Text

end WorkspaceLint

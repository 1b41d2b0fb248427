import TypedQuery.Exchange.Value
import TypedQuery.Fragment.Render

/-!
# Rendered SQL as documents

The document of a fragment holds its text with numbered placeholders, the values of these, and
the text with every value written out.
-/

namespace TypedQuery

namespace Parameters

def toJson (p : Parameters) : Json := .array (p.values.map Typed.toJson)

end Parameters

/-- The members of a document about text that is rendered by `render`; the form with the other
placeholder is left out when there is none in it. -/
def RenderMode.members (render : RenderMode -> Rendered) : List (String × Json) :=
  let bound := render (.bound .atSign)
  let text := [("sql", Json.string bound.sql), ("params", bound.params.toJson),
    ("simple", Json.string (render .simple).sql)]
  if bound.params.isEmpty then text
  else text ++ [("dollar", .string (render (.bound .dollar)).sql)]

namespace Fragment

def members (f : Fragment) : List (String × Json) := RenderMode.members f.renderWith

def toJson (f : Fragment) : Json := .ofMembers f.members

end Fragment

end TypedQuery

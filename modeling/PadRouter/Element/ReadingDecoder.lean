import PadRouter.Notice
import PadRouter.Element.Role

/-!
# Decoding the readings of one device

A device repeats itself. The decoder keeps, for each element, the actions of its last decisive
reading and is silent while they stay the same.

* `ReadingDecoder` — a scheme and the history of the elements.
* `ReadingDecoder.decode` — the actions of a reading, if they differ from the last ones.
-/

namespace PadRouter

/-- The decoder of one device. -/
structure ReadingDecoder where
  scheme : Scheme := {}
  /-- The actions of the last decisive reading of each element. -/
  history : Table Element (List Action) := {}

namespace ReadingDecoder

instance : Inhabited ReadingDecoder := ⟨{}⟩

/-- Decodes a reading. The result is `none` when the element has no use, when its axis rests between
two states, or when the actions are those of its last reading. -/
def decode (rule : Axis.Rule) (d : ReadingDecoder) (r : Reading) : ReadingDecoder × Option (List Action) :=
  match d.scheme.translate rule r with
  | none => (d, none)
  | some actions =>
    if d.history.get? r.element = some actions then (d, none)
    else ({ d with history := d.history.insert r.element actions }, some actions)

/-- The notices of decoding a reading: an element of the Generic Desktop page has no use. -/
def notices (d : ReadingDecoder) (r : Reading) : List Notice :=
  if d.scheme.role r.element = .unmapped then [.unmappedElement r.element] else []

/-- Switches to another scheme; the history stays. -/
def setScheme (d : ReadingDecoder) (s : Scheme) : ReadingDecoder := { d with scheme := s }

/-- Forgets the history, so that the next decisive reading of every element is sent. -/
def reset (d : ReadingDecoder) : ReadingDecoder := { d with history := {} }

end ReadingDecoder

end PadRouter

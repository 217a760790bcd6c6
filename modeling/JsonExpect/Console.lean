import JsonExpect.Case.Outcome

/-!
# Showing lines

What a run shows goes to a stream line by line. The stream may not take every text: one that holds
half of a surrogate pair has no bytes. The first line that it does not take stops the run, and what
has been shown before stays. A quiet run shows nothing.
-/

namespace JsonExpect

/-- Where lines are shown. -/
structure Console where
  /-- Whether the stream takes a text. -/
  takes : String → Bool
  quiet : Bool := false

/-- Lines one below the other. -/
def linesText (lines : List String) : String := String.join (lines.map (· ++ "\n"))

namespace Console

/-- Shows a line behind what has been shown. -/
def say (c : Console) (line : String) : EStateM RunError String Unit := fun shown =>
  if c.quiet then .ok () shown
  else if c.takes line then .ok () (shown ++ linesText [line])
  else .error (.unshown line) shown

/-- Shows lines in turn. -/
def sayAll (c : Console) (lines : List String) : EStateM RunError String Unit := lines.forM c.say

end Console

end JsonExpect

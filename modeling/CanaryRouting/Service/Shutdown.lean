/-!
# Shutting down

One controller can ask for the shutdown; any number of parts of the service wait for that. They
also stop waiting when there is no controller any more.
-/

namespace CanaryRouting

/-- What the controller and the waiting parts share. -/
structure ShutdownChannel where
  /-- Whether the shutdown has been asked for. -/
  requested : Bool := false
  /-- Whether the controller is still there. -/
  controlled : Bool := true
  deriving DecidableEq, Repr

namespace ShutdownChannel

/-- Whether a part need not wait any longer. -/
def isReleased (c : ShutdownChannel) : Bool := c.requested || !c.controlled

/-- Asks for the shutdown, as long as there is a controller. -/
def request? (c : ShutdownChannel) : Option ShutdownChannel :=
  if c.controlled then some { c with requested := true } else none

/-- Gives the controller up. -/
def abandon (c : ShutdownChannel) : ShutdownChannel := { c with controlled := false }

end ShutdownChannel

end CanaryRouting

import CanaryRouting.Config.Settings

/-!
# The label of routes with canary traffic

While a canary gets traffic, its routes carry a label. The configuration gives its key and value,
or switches it off.
-/

namespace CanaryRouting

/-- Sets the label while the weight is not zero and takes it away at zero. The truth value says
whether the metadata changed. -/
def Metadata.ensureLabel (m : Metadata) (weight : Int) (s : Settings) : Metadata × Bool :=
  if s.disableLabel then (m, false)
  else if weight = 0 then
    ({ m with labels := m.labels.map fun ls => ls.erase s.inProgressKey },
      (m.labels.bind fun ls => ls.get? s.inProgressKey).isSome)
  else
    let labels := m.labels.getD KeyMap.empty
    if labels.get? s.inProgressKey = some s.inProgressValue then
      ({ m with labels := some labels }, false)
    else
      ({ m with labels := some (labels.insert s.inProgressKey s.inProgressValue) }, true)

end CanaryRouting

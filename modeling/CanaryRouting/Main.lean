import CanaryRouting.Config.Schema
import CanaryRouting.Json.Indented

/-!
# The schema on the command line

Prints the schema of routing configurations, to be kept in a file for editors and validators.
-/

/-- Prints the schema of routing configurations. -/
def main : IO Unit := IO.println CanaryRouting.Schema.routingConfiguration.pretty

import Mathlib.Data.Int.Basic

/-!
# Workload identities

The identity material of `internal/agent/workload` that the reconciler writes next to a Pod. Times
are nanoseconds since the zero time.
-/

namespace Podmin.Agent.Workload

def second : Int := 1000000000

def minute : Int := 60 * second

def hour : Int := 60 * minute

def day : Int := 24 * hour

/-- A newly issued workload identity and its trust bundle. -/
structure Material where
  certificate : List UInt8
  privateKey : List UInt8
  caBundle : List UInt8
  notAfter : Int
  deriving DecidableEq

def certificateFilename : String := "tls.crt"

def privateKeyFilename : String := "tls.key"

def caBundleFilename : String := "ca.crt"

/-- Whether a leaf enters its renewal window. -/
def needsRenewal (notAfter now : Int) : Bool :=
  !decide (now + 6 * hour < notAfter)

end Podmin.Agent.Workload

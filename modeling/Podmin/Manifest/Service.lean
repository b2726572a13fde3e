import Podmin.Foundation.GoMap
import Podmin.Manifest.Identifiers

/-!
# Desired Services

The provider-neutral Service desired state of `internal/manifest`.
-/

namespace Podmin.Manifest

open Foundation

structure ServicePort where
  name : String
  protocol : String
  port : Int
  targetPort : Int
  deriving DecidableEq, Repr

structure Service where
  name : String
  ns : String
  selector : GoMap String String
  ports : List ServicePort
  deriving DecidableEq

/-- One transformed Pod and its optional Service desired state, with the canonical Service text. -/
structure Deployment where
  pod : List UInt8
  service : Option (Service × List UInt8)
  deriving DecidableEq

end Podmin.Manifest

import Sandstar.BacnetAnswers

set_option autoImplicit false

namespace Sandstar.Bacnet

open Tasks
open Dasp (SocketAddr)
open Drivers (DriverError DriverPointRef)

section Groups

variable {α β : Type}

end Groups

/-- What a device says of the present value of an object: its value, or an error class
    and code. -/
abbrev Answer : Type := Except (UInt32 × UInt32) BacnetValue

def Apdu.Tells : Apdu → Answer → Prop
  | .readPropertyAck _ _ _ _ value, answer => answer = .ok value
  | .error _ _ errorClass errorCode, answer => answer = .error (errorClass, errorCode)
  | _, _ => False

def RpmResult.IsFor (r : RpmResult) (spec : RpmRequestSpec) : Prop :=
  r.objectType = spec.objectType ∧ r.inst = spec.inst ∧ r.propertyId = spec.propertyId

/-- Consistent answers for the objects of the configured points. Whatever arrives has a
    whole BVLL header; a ReadProperty that is answered is told the answer for its object,
    and an acknowledged ReadPropertyMultiple is told the answer for each object it asks
    for. -/
structure Consistent {F : Type} (net : Network) (objects : Table (BitVec 32) (BacnetObject F))
    (answer : SocketAddr → UInt16 → UInt32 → Answer) : Prop where
  whole : ∀ n deviceAddr request k, ∀ d ∈ (net n deviceAddr request k).arrivals, d.decode ≠ none
  reads : ∀ n deviceAddr id pointId obj result, objects.get pointId = some obj →
    outcome id (net n deviceAddr (encodeReadProperty id obj.objectType obj.inst 85 none)) 4 0 =
        some (.answered result) →
      ∃ apdu, result = .ok apdu ∧ apdu.Tells (answer deviceAddr obj.objectType obj.inst)
  batches : ∀ n deviceAddr id (group : List (BitVec 32 × BacnetObject F)) ackId results,
    (∀ p ∈ group, objects.get p.1 = some p.2) →
    outcome id (net n deviceAddr (encodeReadPropertyMultiple id
        (group.map fun p => p.2.presentValueSpec))) 4 0 =
        some (.answered (.ok (.readPropertyMultipleAck ackId results))) →
      ∀ p ∈ group, (∃ r ∈ results, r.IsFor p.2.presentValueSpec) ∧
        ∀ r ∈ results, r.IsFor p.2.presentValueSpec →
          r.value = answer deviceAddr p.2.objectType p.2.inst

section Answers

variable {F : Type} [ValueCasts F]

def Answer.value (obj : BacnetObject F) : Answer → Option F
  | .ok v => v.toF64.map (scaled obj)
  | .error _ => none

end Answers

namespace BacnetDriver

section Sync

variable {F : Type} {host : Host} {objects : Table (BitVec 32) (BacnetObject F)}
  {answer : SocketAddr → UInt16 → UInt32 → Answer}

variable [ValueCasts F]

def Addressed (b : BacnetDriver F) (pointId : BitVec 32) (obj : BacnetObject F)
    (deviceAddr : SocketAddr) : Prop :=
  b.objects.get pointId = some obj ∧ b.deviceRegistry.get obj.deviceId = some deviceAddr

def AgreesWithReads (objects : Table (BitVec 32) (BacnetObject F))
    (answer : SocketAddr → UInt16 → UInt32 → Answer) (deviceAddr : SocketAddr)
    (obj : BacnetObject F) (r : Except DriverError F) : Prop :=
  ∀ (host : Host) (b b' : BacnetDriver F) (single : Except DriverError F)
      (result : Except BacnetError Apdu), Consistent host.net objects answer →
    b.session.transactions.Reachable → b.connected →
    b.session.ending host.net deviceAddr
        (fun id => encodeReadProperty id obj.objectType obj.inst 85 none) 3 =
      some (.answered result) →
    readPresentValue host deviceAddr obj b = some (single, b') → r.toOption = single.toOption

/-- What the path of a result says about it. -/
def Explained (host : Host) (answer : SocketAddr → UInt16 → UInt32 → Answer) (b : BacnetDriver F)
    (r : Reported F) : Prop :=
  match r.path with
  | .unconfigured => b.objects.get r.pointId = none
  | .unregistered => ∃ obj, b.objects.get r.pointId = some obj ∧
      b.deviceRegistry.get obj.deviceId = none
  | .cov => ∃ obj deviceAddr, b.Addressed r.pointId obj deviceAddr ∧ ∃ b₁ entry, Follows b b₁ ∧
      b₁.cached host obj = some entry ∧
      r.result = converted obj "bacnet: non-numeric COV value" entry.value
  | .readProperty => ∃ obj deviceAddr, b.Addressed r.pointId obj deviceAddr ∧ ∃ b₁ b₂,
      Follows b b₁ ∧ readPresentValue host deviceAddr obj b₁ = some (r.result, b₂)
  | .readPropertyMultiple => ∃ obj deviceAddr, b.Addressed r.pointId obj deviceAddr ∧
      AgreesWithReads b.objects answer deviceAddr obj r.result

variable {b₀ : BacnetDriver F}

end Sync

end BacnetDriver

end Sandstar.Bacnet

import BallyDongle.Channels

/-!
# The hub's relay rules

`HubRelay.cpp`: a datagram from the radio is classified from its header alone,
and a frame going down to the radio keeps its producer's header whole.
-/

namespace BallyDongle.HubRelay

open Btp Channels

structure RadioIngress where
  header : Header
  mayConsume : Bool
  deriving DecidableEq, Repr

def classifyRadio (codec : Codec) (datagram : Bytes) : Except DecodeError RadioIngress :=
  (codec.decode .espNow datagram).map fun decoded =>
    { header := decoded.header
      mayConsume := dongleMayConsume decoded.header.type decoded.header.objectId }

def reencodeVerbatim (codec : Codec) (decoded : DecodedFrame) (transport : Transport)
    (outCapacity : Nat) : Option Bytes :=
  codec.encode transport ⟨decoded.header, decoded.payload⟩ outCapacity

end BallyDongle.HubRelay

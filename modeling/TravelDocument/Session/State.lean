/-!
# States of a session

    closed            --open--> open
    open              --BAC-->  bacAuthenticated
    open, bacAuth.    --PACE--> bacAuthenticated
    bacAuthenticated  --CA-->   caAuthenticated
    caAuthenticated   --TA-->   taAuthenticated
    any               --close--> closed
-/

namespace TravelDocument

/-- How far access control has come. -/
inductive SessionState where
  | closed
  | open
  /-- BAC or PACE has succeeded. -/
  | bacAuthenticated
  | caAuthenticated
  | taAuthenticated
  deriving DecidableEq, Repr

/-- A protocol that takes a session to another state. -/
inductive Handshake where
  | bac
  | pace
  | chipAuthentication
  | terminalAuthentication
  deriving DecidableEq, Repr

namespace SessionState

def name : SessionState → String
  | .closed => "Closed"
  | .open => "Open"
  | .bacAuthenticated => "BacAuthenticated"
  | .caAuthenticated => "CaAuthenticated"
  | .taAuthenticated => "TaAuthenticated"

def after? : SessionState → Handshake → Option SessionState
  | .open, .bac => some .bacAuthenticated
  | .open, .pace => some .bacAuthenticated
  | .bacAuthenticated, .pace => some .bacAuthenticated
  | .bacAuthenticated, .chipAuthentication => some .caAuthenticated
  | .caAuthenticated, .terminalAuthentication => some .taAuthenticated
  | _, _ => none

end SessionState
end TravelDocument

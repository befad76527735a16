/-!
# Configuration

Where a client finds its node and how long it waits. Times are in milliseconds.
-/

set_option autoImplicit false

namespace LedgerClient

/-- The settings of a client. -/
structure Config where
  url : String
  chainId : UInt8
  /-- The time between two calls of a wait. -/
  pollInterval : Nat
  /-- The time that a call may take. -/
  requestTimeout : Nat
  deriving DecidableEq, Repr

namespace Config

/-- The settings for the public test network. -/
def testnet : Config where
  url := "https://testnet.diem.com/v1"
  chainId := 2
  pollInterval := 500
  requestTimeout := 30000

/-- The settings for another network, with the usual times. -/
def ofNetwork (url : String) (chainId : UInt8) : Config := { testnet with url, chainId }

end Config

end LedgerClient

/-
UsageLedger/Cluster/Account.lean

How a client reaches a cluster: the address, what each request is signed with,
and the limits on connections.
-/
import UsageLedger.Cluster.Server

namespace UsageLedger.Cluster

/-- A cluster and the right to use it. -/
structure Account where
  host : String
  port : Int
  token : String
  /-- How many connections may be open at once, in all and to one host. -/
  connections : Int

namespace Account

/-- The address of the service. -/
def base (a : Account) : String := "https://" ++ a.host ++ ":" ++ toString a.port

/-- What every request carries. -/
def headers (a : Account) : List (String × String) :=
  [("accept", "application/json"), ("Authorization", "Bearer " ++ a.token)]

/-- The account used with a server. -/
def site (a : Account) (server : Server) : Site := ⟨a.base, server⟩

end Account

/-- How many seconds a client waits: for a connection, and between two pieces of an answer.  The time
for a whole answer is not limited. -/
structure Patience where
  connect : Int
  read : Int

/-- How long a client waits if nothing else is said. -/
def Patience.standard : Patience := ⟨30, 60⟩

end UsageLedger.Cluster

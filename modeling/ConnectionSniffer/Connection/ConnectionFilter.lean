import ConnectionSniffer.Packet.ConnectionDetail

/-!
# `ConnectionFilter.isAcceptable`

A criterion is a `ConnectionDetail` whose unset parts, a `null` address or
a port that is not positive, match anything.  A filter accepts a
connection that matches one of its criteria, and a filter without criteria
accepts every connection.
-/

namespace ConnectionSniffer

/-- A `ConnectionDetail` used as a criterion. -/
structure FilterCriteria where
  clientAddress : Option InetAddress := none
  serverAddress : Option InetAddress := none
  clientPort : Int := 0
  serverPort : Int := 0

/-- `criteria.getClientAddress() != null && !…equals(…)` is false. -/
def addressMatches (criteria : Option InetAddress) (address : InetAddress) : Bool :=
  match criteria with
  | none => true
  | some wanted => wanted == address

/-- `criteria.getClientPort() > 0 && … != …` is false. -/
def portMatches (criteria : Int) (port : UInt16) : Bool :=
  !(decide (criteria > 0) && criteria != (port.toNat : Int))

structure ConnectionFilter where
  filters : List FilterCriteria := []

namespace ConnectionFilter

def isMatch (criteria : FilterCriteria) (connInstance : ConnectionDetail) : Bool :=
  addressMatches criteria.clientAddress connInstance.clientAddress
    && addressMatches criteria.serverAddress connInstance.serverAddress
    && portMatches criteria.clientPort connInstance.clientPort
    && portMatches criteria.serverPort connInstance.serverPort

def isAcceptable (filter : ConnectionFilter) (connectionDetail : ConnectionDetail) : Bool :=
  filter.filters.isEmpty || filter.filters.any (fun criteria => isMatch criteria connectionDetail)

end ConnectionFilter

end ConnectionSniffer

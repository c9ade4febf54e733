/-!
How to reach a cluster. The defaults are an unsigned connection to a cluster on this machine.
-/

namespace SearchRelay

structure ClusterSettings where
  url : String := "http://localhost:9200"
  /-- The one index for documents of all types. -/
  index : String := "gitlab-development"
  /-- Requests are signed. -/
  signed : Bool := false
  region : String := "us-east-1"
  accessKey : Option String := none
  secretKey : Option String := none
  /-- Seconds until a connection has to be there. -/
  connectTimeout : Nat := 10
  /-- Seconds until a request has to be answered. -/
  timeout : Nat := 30
deriving DecidableEq, Repr

end SearchRelay

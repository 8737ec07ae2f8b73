/-!
# Kinds of routes

The four kinds of route resource whose traffic can be shaped. A request works through them in the
order HTTP, GRPC, TCP, TLS.
-/

namespace CanaryRouting

/-- A kind of route. -/
inductive RouteKind where
  /-- Routes of HTTP requests. -/
  | http
  /-- Routes of GRPC calls. -/
  | grpc
  /-- Routes of TCP connections. -/
  | tcp
  /-- Routes of TLS connections. -/
  | tls
  deriving DecidableEq, Repr, Inhabited

namespace RouteKind

/-- All kinds, in the order in which requests process them. -/
def all : List RouteKind := [.http, .grpc, .tcp, .tls]

/-- The place of a kind in that order. -/
def rank : RouteKind → Nat
  | .http => 0
  | .grpc => 1
  | .tcp => 2
  | .tls => 3

/-- The name of the kind. -/
def name : RouteKind → String
  | .http => "HTTPRoute"
  | .grpc => "GRPCRoute"
  | .tcp => "TCPRoute"
  | .tls => "TLSRoute"

/-- The name of the kind's resource in the path of a request. -/
def plural : RouteKind → String
  | .http => "httproutes"
  | .grpc => "grpcroutes"
  | .tcp => "tcproutes"
  | .tls => "tlsroutes"

/-- The key under which the registry document keeps the kind's managed routes. -/
def registryKey : RouteKind → String
  | .http => "httpManagedRoutes"
  | .grpc => "grpcManagedRoutes"
  | .tcp => "tcpManagedRoutes"
  | .tls => "tlsManagedRoutes"

/-- Only rules with header conditions can carry header routes. -/
def supportsHeaderRoutes : RouteKind → Bool
  | .http | .grpc => true
  | .tcp | .tls => false

theorem mem_all (kind : RouteKind) : kind ∈ all := by cases kind <;> decide

theorem rank_injective {a b : RouteKind} (h : a.rank = b.rank) : a = b := by
  cases a <;> cases b <;> simp_all [rank]

theorem name_injective {a b : RouteKind} (h : a.name = b.name) : a = b := by
  cases a <;> cases b <;> simp_all [name]

theorem registryKey_injective {a b : RouteKind} (h : a.registryKey = b.registryKey) : a = b := by
  cases a <;> cases b <;> simp_all [registryKey]

end RouteKind

end CanaryRouting

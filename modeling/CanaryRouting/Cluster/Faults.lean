import CanaryRouting.Cluster.Basic

/-!
# Requests that fail

A server need not carry out a request: it may answer with an error instead, and then changes
nothing. Which of the coming requests of a run fail, and how, is a list; behind its end no request
fails.
-/

namespace CanaryRouting

/-- Answers a request, or lets it fail. -/
def Cluster.respondUnless (c : Cluster) (failure : Option ApiFailure) (r : Request) :
    Except ApiFailure r.Answer × Cluster :=
  match failure with
  | some failure => (.error failure, c)
  | none => Cluster.respond r c

/-- A cluster, and which of the coming requests fail. -/
structure FaultyCluster where
  /-- The cluster. -/
  cluster : Cluster
  /-- For each coming request the failure that it is answered with, if it fails. -/
  failures : List (Option ApiFailure) := []

namespace FaultyCluster

/-- The failure of the next request, if it fails. -/
def failure? (s : FaultyCluster) : Option ApiFailure := s.failures.head?.join

/-- Answers a request, or fails it if it is its turn to fail. -/
def respond : Program.Server FaultyCluster := fun r s =>
  ((s.cluster.respondUnless s.failure? r).1,
    ⟨(s.cluster.respondUnless s.failure? r).2, s.failures.tail⟩)

end FaultyCluster

end CanaryRouting

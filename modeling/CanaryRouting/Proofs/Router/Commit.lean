import CanaryRouting.Router.HeaderRoutes

/-!
# What a commit asks

A commit is a transaction of two writes. Spelt out, it is a tree of at most three requests
(`run_commit`): the route is written, then the document, and if the document is refused, the
earlier route is written again. Only if this last request fails does the error say that something
is left.
-/

namespace CanaryRouting

/-- A request of the store is one question. -/
theorem Call.run_ofStore_perform (r : Request) :
    (Call.ofStore (Store.perform r)).run =
      .ask r fun x => .done ((x.mapError (StoreError.ofFailure r.what)).mapError .store) := rfl

namespace Router

/-- The error of a commit of which a request failed, with what could not be undone. -/
def commitError (w : Write) (r : Request) (failure : ApiFailure)
    (left : List CompensationFailure) : RoutingError :=
  .transaction ⟨w.describe, .ofFailure r.what failure, left⟩

/-- The requests of a commit. -/
theorem run_commit (plan : Plan) (document : Document) (key : String) (change : RouteChange) :
    (commit plan document key change).run =
      let routeWrite : Write := .route ⟨plan.space, change.before, change.after, none⟩
      let documentWrite : Write :=
        .document (.make plan.space document key change.registryBefore change.registryAfter)
      let forward := change.registryAfter.store document key
      .ask (.updateRoute plan.space change.after) fun
        | .error failure =>
          .done (.error (commitError routeWrite (.updateRoute plan.space change.after) failure []))
        | .ok stored => .ask (.updateDocument plan.space forward) fun
          | .ok written => .done (.ok written)
          | .error failure =>
            let back := change.before.withVersion stored.metadata.resourceVersion
            let documentError :=
              commitError documentWrite (.updateDocument plan.space forward) failure
            .ask (.updateRoute plan.space back) fun
              | .ok _ => .done (.error (documentError []))
              | .error failure' => .done (.error (documentError
                [⟨routeWrite.describe, .ofFailure (Request.updateRoute plan.space back).what
                  failure'⟩])) := by
  refine congrArg (Program.ask _) (funext fun answer => ?_)
  cases answer with
  | error failure => rfl
  | ok stored =>
    refine congrArg (Program.ask _) (funext fun answer => ?_)
    cases answer with
    | ok written => rfl
    | error failure =>
      refine congrArg (Program.ask _) (funext fun answer => ?_)
      cases answer with
      | ok _ => rfl
      | error failure' => rfl

end Router

end CanaryRouting

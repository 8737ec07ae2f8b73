import CanaryRouting.Config.Selector
import CanaryRouting.Error
import CanaryRouting.Gateway.Resource

/-!
# Programs over the API server

The server answers requests one at a time, and between two requests of one caller it may answer
those of others. A `Program` is what one caller does: it ends with a result, asks a request and
goes on with the answer, or waits for the lock of a registry document. A lock is held until the
program ends. Programs are data, so one program can be run against any server
(`Program.run`) and any number of them can be interleaved.
-/

namespace CanaryRouting

/-- A request that was not answered with what was asked for. -/
inductive ApiFailure where
  /-- The server answered with an error status. -/
  | status (code : Nat)
  /-- The server answered with something else. -/
  | unreadable
  /-- The request names no object and was not sent. -/
  | unsent
  deriving DecidableEq, Repr

/-- A request to the API server. -/
inductive Request where
  /-- Reads a route. -/
  | getRoute (space : String) (kind : RouteKind) (name : String)
  /-- Replaces a stored route. -/
  | updateRoute (space : String) (route : Route)
  /-- Lists the names of the routes that a selector picks. -/
  | listRoutes (space : String) (kind : RouteKind) (selector : LabelSelector)
  /-- Reads a document. -/
  | getDocument (space name : String)
  /-- Creates a document without texts. -/
  | createDocument (space name : String)
  /-- Replaces a stored document. -/
  | updateDocument (space : String) (document : Document)

/-- What a request is answered with when it succeeds. -/
def Request.Answer : Request → Type
  | .getRoute .. => Route
  | .updateRoute .. => Route
  | .listRoutes .. => List String
  | .getDocument .. => Document
  | .createDocument .. => Document
  | .updateDocument .. => Document

/-- The object or list a request is about, as messages name it. -/
def Request.what : Request → String
  | .getRoute space kind name => kind.name ++ " " ++ space ++ "/" ++ name
  | .updateRoute space route => route.kind.name ++ " " ++ space ++ "/" ++ route.name
  | .listRoutes space kind _ => kind.name ++ " list in " ++ space
  | .getDocument space name => "ConfigMap " ++ space ++ "/" ++ name
  | .createDocument space name => "ConfigMap " ++ space ++ "/" ++ name
  | .updateDocument space document => "ConfigMap " ++ space ++ "/" ++ document.name

/-- What a caller does, until it ends with a result. -/
inductive Program (α : Type) where
  /-- Ends. -/
  | done (result : α)
  /-- Asks a request and goes on with the answer. -/
  | ask (request : Request) (next : Except ApiFailure request.Answer → Program α)
  /-- Waits for the lock of a registry document, holds it from then on, and goes on. -/
  | lock (space document : String) (next : Program α)

namespace Program

variable {α β γ : Type}

/-- Goes on with another program when the first one ends. -/
def bind : Program α → (α → Program β) → Program β
  | .done a, f => f a
  | .ask r next, f => .ask r fun answer => (next answer).bind f
  | .lock space document next, f => .lock space document (next.bind f)

instance : Monad Program where
  pure := done
  bind := bind

@[simp] theorem done_bind (a : α) (f : α → Program β) : (done a).bind f = f a := rfl

@[simp] theorem ask_bind (r : Request) (next : Except ApiFailure r.Answer → Program α)
    (f : α → Program β) : (ask r next).bind f = ask r fun answer => (next answer).bind f := rfl

@[simp] theorem lock_bind (space document : String) (next : Program α) (f : α → Program β) :
    (lock space document next).bind f = lock space document (next.bind f) := rfl

theorem bind_done (p : Program α) : p.bind done = p := by
  induction p with
  | done a => rfl
  | ask r next ih => rw [ask_bind, funext ih]
  | lock space document next ih => rw [lock_bind, ih]

theorem bind_bind (p : Program α) (f : α → Program β) (g : β → Program γ) :
    (p.bind f).bind g = p.bind fun a => (f a).bind g := by
  induction p with
  | done a => rfl
  | ask r next ih => rw [ask_bind, ask_bind, ask_bind, funext ih]
  | lock space document next ih => rw [lock_bind, lock_bind, lock_bind, ih]

instance : LawfulMonad Program :=
  LawfulMonad.mk' Program bind_done (fun _ _ => rfl) bind_bind

/-- Asks one request. -/
def request (r : Request) : Program (Except ApiFailure r.Answer) := .ask r .done

/-- Waits for the lock of a registry document. -/
def acquire (space document : String) : Program Unit := .lock space document (.done ())

/-- A server: how it answers a request, and what state that leaves it in. -/
abbrev Server (σ : Type) := (r : Request) → σ → Except ApiFailure r.Answer × σ

/-- Runs a program against a server that nobody else uses; its locks are free. -/
def run {σ : Type} (server : Server σ) : Program α → σ → α × σ
  | .done a, s => (a, s)
  | .ask r next, s => (next (server r s).1).run server (server r s).2
  | .lock _ _ next, s => next.run server s

@[simp] theorem run_done {σ : Type} (server : Server σ) (a : α) (s : σ) :
    (done a).run server s = (a, s) := rfl

@[simp] theorem run_ask {σ : Type} (server : Server σ) (r : Request)
    (next : Except ApiFailure r.Answer → Program α) (s : σ) :
    (ask r next).run server s = (next (server r s).1).run server (server r s).2 := rfl

@[simp] theorem run_lock {σ : Type} (server : Server σ) (space document : String)
    (next : Program α) (s : σ) : (lock space document next).run server s = next.run server s := rfl

/-- A program in two parts runs one part after the other. -/
theorem run_bind {σ : Type} (server : Server σ) (p : Program α) (f : α → Program β) (s : σ) :
    (p.bind f).run server s = (f (p.run server s).1).run server (p.run server s).2 := by
  induction p generalizing s with
  | done a => rfl
  | ask r next ih => rw [ask_bind, run_ask, run_ask, ih]
  | lock space document next ih => rw [lock_bind, run_lock, run_lock, ih]

end Program

/-! ### Operations of the store -/

/-- The error that a failed request is reported as. -/
def StoreError.ofFailure (what : String) : ApiFailure → StoreError
  | .status 404 => .notFound what
  | .status 409 => .conflict what
  | _ => .failed what

namespace Store

/-- Asks a request and reports a failure as an error about its object. -/
def perform (r : Request) : Program (Except StoreError r.Answer) := do
  return (← Program.request r).mapError (StoreError.ofFailure r.what)

/-- Reads a route. -/
def getRoute (space : String) (kind : RouteKind) (name : String) :
    Program (Except StoreError Route) :=
  perform (.getRoute space kind name)

/-- Replaces a route; a version other than the stored one is a conflict. -/
def updateRoute (space : String) (route : Route) : Program (Except StoreError Route) :=
  perform (.updateRoute space route)

/-- Lists the names of the routes that a selector picks. -/
def listRoutes (space : String) (kind : RouteKind) (selector : LabelSelector) :
    Program (Except StoreError (List String)) :=
  perform (.listRoutes space kind selector)

/-- Reads a document; one that does not exist is no error. -/
def getDocument (space name : String) : Program (Except StoreError (Option Document)) := do
  return match ← perform (.getDocument space name) with
    | .ok document => .ok (some document)
    | .error (.notFound _) => .ok none
    | .error error => .error error

/-- Creates a document without texts. -/
def createDocument (space name : String) : Program (Except StoreError Document) :=
  perform (.createDocument space name)

/-- Replaces a document; a version other than the stored one is a conflict. -/
def updateDocument (space : String) (document : Document) :
    Program (Except StoreError Document) :=
  perform (.updateDocument space document)

end Store

end CanaryRouting

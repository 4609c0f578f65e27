import RemoteCall.Message.Codec

/-! The methods that a server offers.

A handler is registered under the names of a service and a method, once. Every request
is answered: one for a method that nobody registered, and one whose handler fails, get a
response that says so. -/
namespace RemoteCall.Server

/-- What a handler knows about a call besides the request. -/
structure Context where
  /-- The serializer of the request, in which the reply is written as well. -/
  serializer : Serializer
  requestId : UInt64
  deriving DecidableEq, Repr

/-- A handler answers a request, or says why it cannot. -/
abbrev MethodHandler : Type := Context → Request → Except String Response

/-- A second handler for one method. -/
structure DuplicateHandler where
  service : String
  method : String
  deriving DecidableEq, Repr

def DuplicateHandler.message (d : DuplicateHandler) : String :=
  s!"a handler for {d.service}.{d.method} is already registered"

/-- A handler under the names of its service and its method. -/
structure Method where
  service : String
  method : String
  handler : MethodHandler

structure Endpoint where
  methods : List Method := []

namespace Endpoint

def handler? (e : Endpoint) (service method : String) : Option MethodHandler :=
  (e.methods.find? fun m => m.service = service && m.method = method).map Method.handler

def hasMethod (e : Endpoint) (service method : String) : Bool := (e.handler? service method).isSome

/-- The number of methods. -/
def size (e : Endpoint) : Nat := e.methods.length

/-- Registers a handler, unless there is one. -/
def register (e : Endpoint) (service method : String) (handler : MethodHandler) :
    Except DuplicateHandler Unit × Endpoint :=
  if e.hasMethod service method then (.error ⟨service, method⟩, e)
  else (.ok (), ⟨e.methods ++ [⟨service, method, handler⟩]⟩)

/-- Registers handlers up to the first for which there is one. -/
def registerAll (e : Endpoint) : List Method → Except DuplicateHandler Unit × Endpoint
  | [] => (.ok (), e)
  | m :: rest =>
    match e.register m.service m.method m.handler with
    | (.ok (), e) => e.registerAll rest
    | (.error d, e) => (.error d, e)

def notFound (r : Request) : Response :=
  .failure "method not found" s!"no handler registered for {r.serviceName}.{r.methodName}"

def handlerFailed (reason : String) : Response := .failure "handler failed" reason

def dispatch (e : Endpoint) (context : Context) (r : Request) : Status × Response :=
  match e.handler? r.serviceName r.methodName with
  | none => (.badResponse, notFound r)
  | some handler =>
    match handler context r with
    | .ok response => (.ok, response)
    | .error reason => (.badResponse, handlerFailed reason)

end Endpoint
end RemoteCall.Server

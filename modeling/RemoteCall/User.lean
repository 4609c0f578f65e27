import RemoteCall.Call.Pipeline
import RemoteCall.Server.Endpoint

/-! The sample service: it knows users by name, and a number. -/
namespace RemoteCall

structure User where
  name : String
  deriving DecidableEq, Repr, Inhabited

def User.shape : Shape User :=
  .via (.record "User" "example_wirecall_app::service_definition::user::User"
      (.needed "name" .text .nil))
    (fun u => (u.name, ())) (fun (name, ()) => ⟨name⟩) (fun _ => rfl)

namespace UserService

def serviceName : String := "UserService"

def getUserMethod : String := "getUser"

def getNumberMethod : String := "getNumber"

/-- The number of a service that sends none back. -/
def defaultNumber : BitVec 16 := 1

/-! ### Calling -/

def getUser (p : Pipeline) (u : User) : Process (Except CallError (Option User)) :=
  p.call User.shape
    (Request.withArg { serviceName := serviceName, methodName := getUserMethod }
      p.serializer User.shape u)

def getNumber (p : Pipeline) : Process (Except CallError (BitVec 16)) :=
  (p.call (.int .i16) { serviceName := serviceName, methodName := getNumberMethod }).map
    fun r => r.map fun n => n.getD defaultNumber

/-! ### Answering -/

/-- Sends back the user that it was given. -/
def answerUser : Server.MethodHandler := fun context r =>
  match r.arg context.serializer User.shape 0 with
  | .ok u => .ok (.withData context.serializer User.shape u)
  | .error e => .error e.message

/-- The number that the service has. -/
def number : BitVec 16 := 1

def answerNumber : Server.MethodHandler := fun context _ =>
  .ok (.withData context.serializer (.int .i16) number)

/-- The methods of the service, in the order in which they are registered. -/
def methods : List Server.Method :=
  [⟨serviceName, getUserMethod, answerUser⟩, ⟨serviceName, getNumberMethod, answerNumber⟩]

end UserService
end RemoteCall

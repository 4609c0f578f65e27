/-! Fresh request ids: 1, 2, 3 and so on, starting over from 0 behind the largest word. -/
namespace RemoteCall

/-- The id that is handed out next. -/
structure RequestIds where
  next : UInt64 := 1
  deriving DecidableEq, Repr, Inhabited

namespace RequestIds

def fresh (ids : RequestIds) : UInt64 × RequestIds := (ids.next, ⟨ids.next + 1⟩)

/-- The next `n` ids. -/
def take : (n : Nat) → RequestIds → List UInt64
  | 0, _ => []
  | n + 1, ids => ids.fresh.1 :: take n ids.fresh.2

end RequestIds
end RemoteCall

import ChatCommands.Host.Basic

set_option autoImplicit false

/-!
# Subscribers

Who receives events: the listeners of each event and the middleware of all
events, each in the order of registration. The same one may be registered more
than once; taking one away takes away its first registration.
-/
namespace ChatCommands

structure Subscribers where
  listeners : Assoc (List Hook) := []
  middleware : List Middleware := []

namespace Subscribers

def listenersOf (s : Subscribers) (event : String) : List Hook := (s.listeners.find? event).getD []

def apply (s : Subscribers) : Edit → Subscribers
  | .listen event h => { s with listeners := s.listeners.put event (s.listenersOf event ++ [h]) }
  | .unlisten event h =>
    if h ∈ s.listenersOf event then
      { s with listeners := s.listeners.put event ((s.listenersOf event).erase h) }
    else s
  | .install m => { s with middleware := s.middleware ++ [m] }
  | .uninstall m => { s with middleware := s.middleware.erase m }

def notices {σ : Type} (host : Host σ) (s : Subscribers) : Edit → List Notice
  | .listen event h => [.listenerAdded event (host.name h)]
  | .unlisten event h =>
    if h ∈ s.listenersOf event then [.listenerRemoved event (host.name h)]
    else [.listenerUnknown event (host.name h)]
  | .install m => [.middlewareAdded (host.middlewareName m)]
  | .uninstall m => if m ∈ s.middleware then [.middlewareRemoved (host.middlewareName m)] else []

/-- The middleware of an event system that reports outcomes and faults. -/
def standardMiddleware : List Middleware := [.outcomeLog 0, .faultLog 0]

end Subscribers
end ChatCommands

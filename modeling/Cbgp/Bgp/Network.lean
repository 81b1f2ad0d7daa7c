import Cbgp.Bgp.Router

/-! # Networks of routers

Routers that exchange messages.  What a router hands to the network for an address is delivered to
the router with this address in the order in which it was sent, or it is lost; messages to
different addresses, or from different routers, are not ordered.  Which router has an address is
fixed (`owner`).
-/

namespace Cbgp.Bgp

open Cbgp.Lib Cbgp.Net

variable {ι : Type} [DecidableEq ι]

/-- The routers, and how many of the messages a router sent to an address have left the network. -/
structure Network (ι : Type) where
  router : ι → Router
  taken : ι → NetAddr → Nat

namespace Network

/-- The messages from a router to an address that are on their way, oldest first. -/
def inFlight (n : Network ι) (i : ι) (dst : NetAddr) : List Sent :=
  ((n.router i).outbox.filter fun sent => decide (sent.dst = dst)).drop (n.taken i dst)

/-- Replace one router. -/
def setRouter (n : Network ι) (i : ι) (r : Router) : Network ι :=
  { n with router := Function.update n.router i r }

/-- The oldest message from a router to an address leaves the network. -/
def take (n : Network ι) (i : ι) (dst : NetAddr) : Network ι :=
  { n with
    taken := Function.update n.taken i (Function.update (n.taken i) dst (n.taken i dst + 1)) }

end Network

/-- What can happen in a network. -/
inductive NetOp (ι : Type) where
  | act (i : ι) (op : Op) -- at one router
  | deliver (i : ι) (dst : NetAddr) -- the oldest message from a router to an address
  | lose (i : ι) (dst : NetAddr) -- the same message, when a link on its way is down

/-- One step of a network. -/
def netStep (owner : NetAddr → Option ι) (n : Network ι) : NetOp ι → Except Abort (Network ι)
  | .act i op => (exec (n.router i) op).map fun r => n.setRouter i r
  | .deliver i dst =>
    match n.inFlight i dst, owner dst with
    | sent :: _, some j =>
      (exec (n.router j) (.handleMessage sent.src sent.msg)).map fun r =>
        (n.take i dst).setRouter j r
    | _, _ => .ok n
  | .lose i dst => .ok (if (n.inFlight i dst).isEmpty then n else n.take i dst)

/-- Only the messages of virtual peers come from outside the network. -/
def Genuine (n : Network ι) : NetOp ι → Prop
  | .act i (.handleMessage src _) =>
    ∀ peer, (n.router i).peers.lookup src = some peer → peer.virtual = true
  | _ => True

end Cbgp.Bgp

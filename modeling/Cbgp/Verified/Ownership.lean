import Cbgp.Verified.Steps

/-! # Who owns the routes

Every route of an Adj-RIB-In names the peer it belongs to, and a Loc-RIB route names no peer exactly
when it is flagged `ROUTE_FLAG_INTERNAL`: `Owned`, an invariant of every run.
-/

namespace Cbgp.Verified

open Cbgp.Lib Cbgp.Net Cbgp.Bgp

/-! ## Looking through changes of an Adj-RIB-In -/

theorem dropped_adjRoute (r : Router) (addr a : NetAddr) (p q : Pfx) :
    (dropped r addr p).adjRoute a q =
      if a = addr ∧ ipPrefixMask q = ipPrefixMask p then none else r.adjRoute a q := by
  simp only [dropped, Router.adjRoute, modifyPeer_lookup]
  by_cases same : a = addr
  · subst same
    simp only [if_true, true_and]
    cases r.peers.lookup a with
    | none => simp
    | some peer => simp [Rib.findExact_removeRoute]
  · simp [same]

/-- The route an accepted UPDATE leaves in the Adj-RIB-In. -/
theorem stored_adjRoute {r : Router} {addr : NetAddr} (route : Route) (attr : Attr) (a : NetAddr)
    (q : Pfx) :
    (stored r addr route attr).adjRoute a q =
      if a = addr ∧ ipPrefixMask q = ipPrefixMask route.pfx then
        (r.peers.lookup addr).map fun peer => acceptedRoute r peer route attr
      else r.adjRoute a q := by
  simp only [stored, Router.adjRoute, modifyPeer_lookup]
  by_cases same : a = addr
  · subst same
    simp only [if_true, true_and]
    cases r.peers.lookup a with
    | none => simp
    | some peer => simp [Rib.findExact_addRoute, acceptedRoute]
  · simp [same]

/-! ## The invariant -/

/-- Routes name the peer they belong to; local routes are those that name none. -/
structure Owned (r : Router) : Prop where
  adj : ∀ {a p route}, r.adjRoute a p = some route →
    route.peer = some a ∧ route.flags.internal = false
  loc : ∀ {p route}, r.locRib.findExact p = some route →
    (route.flags.internal = true ↔ route.peer = none)

/-- No route anywhere. -/
structure Fresh (r : Router) : Prop where
  adj : ∀ a p, r.adjRoute a p = none
  loc : ∀ p, r.locRib.findExact p = none
  nets : r.localNets = []

theorem fresh_create (asn : Asn) (rid : NetAddr) (rt : NetRt) (env : Env) :
    Fresh (bgpRouterCreate asn rid rt env) where
  adj a p := by simp [Router.adjRoute, bgpRouterCreate]
  loc p := rfl
  nets := rfl

theorem Fresh.addPeer {r : Router} (fresh : Fresh r) (addr : NetAddr) {peer : Peer}
    (empty : peer.adjRibIn = Rib.create) : Fresh (bgpRouterAddPeer r addr peer) := by
  unfold bgpRouterAddPeer
  split
  · exact fresh
  · refine ⟨fun a p => ?_, fresh.loc, fresh.nets⟩
    by_cases same : a = addr
    · subst same
      simp [Router.adjRoute, AList.lookup_insert, empty]
    · simpa [Router.adjRoute, AList.lookup_insert_ne same] using fresh.adj a p

theorem Fresh.owned {r : Router} (fresh : Fresh r) : Owned r where
  adj held := by simp [fresh.adj] at held
  loc held := by simp [fresh.loc] at held

namespace Owned

variable {r r' : Router}

theorem quiet (owned : Owned r) (quiet : Quiet r r') : Owned r' where
  adj held := owned.adj (quiet.adjRoute _ _ ▸ held)
  loc held := owned.loc (quiet.locRib ▸ held)

theorem flagged {p : Pfx} {g : NetAddr → RouteFlags → RouteFlags} (owned : Owned r)
    (flagged : Flagged r r' p g) (keeps : KeepsFlags g) {a : NetAddr} {q : Pfx} {route : Route}
    (held : r'.adjRoute a q = some route) : route.peer = some a ∧ route.flags.internal = false := by
  rw [flagged.adj] at held
  split at held
  · obtain ⟨old, heldOld, rfl⟩ := Option.map_eq_some_iff.mp held
    obtain ⟨peer, external⟩ := owned.adj heldOld
    exact ⟨peer, (keeps a old.flags).2.1.trans external⟩
  · exact owned.adj held

theorem learned {p : Pfx} {route : Route} {a : NetAddr} (owned : Owned r)
    (held : r.locRib.findExact p = some route) (peer : route.peer = some a) :
    route.flags.internal = false := by
  rw [Bool.eq_false_iff, ne_eq, owned.loc held, peer]
  simp

/-- A decision process keeps the owners. -/
theorem outcome {p : Pfx} (owned : Owned r) (outcome : Outcome r r' p) : Owned r' := by
  cases outcome with
  | shadowed _ _ _ same => exact same ▸ owned
  | ran g flagged keeps learned left compared installed =>
    refine ⟨owned.flagged flagged keeps, fun {q route} held => ?_⟩
    have elsewhere {entry : Option Route} (loc : LocAt r r' p entry)
        (here : ∀ route, entry = some route → (route.flags.internal = true ↔ route.peer = none)) :
        route.flags.internal = true ↔ route.peer = none := by
      rw [loc q] at held
      split at held
      · exact here route held
      · exact owned.loc held
    cases installed with
    | nothing _ same => exact owned.loc (same ▸ held)
    | lost _ _ loc => exact elsewhere loc fun _ entry => by cases entry
    | unchanged w old _ _ heldOld _ _ loc =>
      exact elsewhere loc fun _ entry => by
        cases entry
        exact (owned.loc heldOld :)
    | updated w won wonHeld _ loc =>
      exact elsewhere loc fun _ entry => by
        cases entry
        obtain ⟨peer, external⟩ := owned.adj wonHeld
        simp [peer, external, (keeps w.addr won.flags).2.1]

theorem stored {addr : NetAddr} {route : Route} (attr : Attr) (owned : Owned r)
    (peer : route.peer = some addr) (external : route.flags.internal = false) :
    Owned (stored r addr route attr) where
  adj held := by
    rw [stored_adjRoute] at held
    split at held
    next here =>
      obtain ⟨_, _, rfl⟩ := Option.map_eq_some_iff.mp held
      exact ⟨here.1 ▸ peer, external⟩
    · exact owned.adj held
  loc held := owned.loc held

theorem dropped (owned : Owned r) (addr : NetAddr) (p : Pfx) : Owned (dropped r addr p) where
  adj held := by
    rw [dropped_adjRoute] at held
    split at held
    · cases held
    · exact owned.adj held
  loc held := owned.loc held

theorem retired (owned : Owned r) (addr : NetAddr) (p : Pfx) : Owned (retired r addr p) where
  adj held := by
    rw [Verified.retired, setAdjFlags_adjRoute] at held
    split at held
    · obtain ⟨old, heldOld, rfl⟩ := Option.map_eq_some_iff.mp held
      exact (owned.adj heldOld :)
    · exact owned.adj held
  loc held := owned.loc held

theorem originated (owned : Owned r) (p : Pfx) : Owned (originated r p) where
  adj held := owned.adj held
  loc held := by
    rw [Verified.originated, Rib.findExact_addRoute] at held
    split at held
    · cases held
      simp [localRoute, routeCreate]
    · exact owned.loc held

theorem unoriginated (owned : Owned r) (p : Pfx) : Owned (unoriginated r p) where
  adj held := owned.adj held
  loc held := by
    rw [Verified.unoriginated, Rib.findExact_removeRoute] at held
    split at held
    · cases held
    · exact owned.loc held

theorem cleared : Owned (bgpRouterClearRib r) where
  adj {a p route} held := by
    simp only [Router.adjRoute, bgpRouterClearRib, Table.lookup_mapVals] at held
    cases known : r.peers.lookup a with
    | none => simp [known] at held
    | some peer => simp [known] at held
  loc held := by simp [bgpRouterClearRib] at held

end Owned

end Cbgp.Verified

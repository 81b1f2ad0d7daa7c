import Cbgp.Bgp.Network
import Cbgp.Verified.Ownership
import Cbgp.Verified.Posting

/-! # Where routes come from

Attributes enter a router with a local network or with an UPDATE, and leave it with an UPDATE.  If
the local ones are `good`, whatever is exported from good ones is `told`, and the import checks make
good ones of what is told, then in every state of every run the routes of all routers have good
attributes and all UPDATEs are told (`netStep_vouched`).
-/

namespace Cbgp.Verified

open Cbgp.Lib Cbgp.Net Cbgp.Bgp

/-! ## The place of a router -/

/-- The configuration and the surroundings are as before. -/
structure Site (r s : Router) : Prop extends Configured r s where
  env : s.env = r.env

namespace Site

variable {r s t : Router}

theorem refl (r : Router) : Site r r := ⟨.refl r, rfl⟩

theorem next (site : Site r s) (configured : Configured s t) (env : t.env = s.env) : Site r t :=
  ⟨site.toConfigured.trans configured, env.trans site.env⟩

theorem alike (site : Site r s) (alike : Alike s t) : Site r t :=
  site.next (.of_alike alike) (by rw [alike.router])

theorem outcome {p : Pfx} (site : Site r s) (outcome : Outcome s t p) : Site r t := by
  refine site.next (.of_outcome outcome) ?_
  cases outcome with
  | shadowed _ _ _ same => rw [same]
  | ran _ flagged => exact flagged.env

theorem rules (r : Router) :
    DataInvariant (Site r) (fun s _ => Site r s) (fun _ _ => True) fun _ => True where
  start site := site
  quiet site quiet := site.alike quiet.toAlike
  decides site _ := (decisionProcess_ends _ _).mono (fun _ outcome => site.outcome outcome)
    fun _ _ => trivial
  fails _ := trivial
  store site _ _ _ := site.next (.modify _ fun _ => rfl) rfl
  drop site _ := site.next (.modify _ fun _ => rfl) rfl
  dropBest site _ := site.next (.modify _ fun _ => rfl) rfl
  retire site := site.next (.modify _ fun _ => rfl) rfl
  dropRetired site _ := site.next (.modify _ fun _ => rfl) rfl

end Site

/-- Only a change of the network changes the surroundings. -/
theorem exec_site {r s : Router} {op : Op} (kept : ∀ rt env, op ≠ .netChange rt env)
    (h : exec r op = .ok s) : Site r s := by
  have rules := Site.rules r
  have start := Site.refl r
  refine Ends.value (rules.exec start (fun _ _ => trivial) ?_ ?_ ?_ ?_) h
  · rintro p rfl
    exact rules.addNetwork start fun _ => start.next ⟨rfl, rfl, rfl, rfl, fun _ => rfl⟩ rfl
  · rintro p rfl
    exact rules.delNetwork start fun _ => start.next ⟨rfl, rfl, rfl, rfl, fun _ => rfl⟩ rfl
  · rintro rfl
    exact start.next (exec_configured (show exec r .clearRib = .ok _ from rfl)) rfl
  · rintro rt env rfl
    exact absurd rfl (kept rt env)

/-! ## One router -/

section Router

variable (good : Option NetAddr → Attr → Prop) (told : NetAddr → Attr → Prop)

/-- Routes have good attributes, for the peer they were learned from; UPDATEs are told. -/
structure Vouched (r : Router) : Prop where
  owned : Owned r
  adj : ∀ {a p route}, r.adjRoute a p = some route → good (some a) route.attr
  loc : ∀ {p route}, r.locRib.findExact p = some route → good route.peer route.attr
  sent : ∀ sent ∈ r.outbox, ∀ route, sent.msg.body = .update route → told sent.dst route.attr

/-- A state of the router `r` with good routes. -/
structure Traced (r s : Router) : Prop where
  site : Site r s
  vouched : Vouched good told s

/-- What the router exports of good attributes is told. -/
def Exports (r : Router) : Prop :=
  ∀ s dst peer best announced, Site r s → Owned s → s.peers.lookup dst = some peer →
    s.locRib.findExact best.pfx = some best → good best.peer best.attr →
    exportRoute s peer best = .ok (some announced) → told dst announced.attr

/-- The import checks of the router make good attributes of those in a message. -/
def Imports (r : Router) (addr : NetAddr) (body : MsgBody) : Prop :=
  ∀ s peer route attr, Site r s → s.peers.lookup addr = some peer → body = .update route →
    bgpPeerRouteEligible s peer (receivedRoute s addr peer route) = .ok (some attr) →
    good (some addr) attr

/-- Networks of the router have good attributes. -/
def Originates (r : Router) : Prop :=
  ∀ s p, Site r s → good none (localRoute s p).attr

end Router

namespace Vouched

variable {good : Option NetAddr → Attr → Prop} {told : NetAddr → Attr → Prop} {r s t : Router}

theorem of_fresh (fresh : Fresh r) (silent : r.outbox = []) : Vouched good told r where
  owned := fresh.owned
  adj held := by simp [fresh.adj] at held
  loc held := by simp [fresh.loc] at held
  sent := by simp [silent]

/-- What a router with good routes sends is told. -/
theorem sentBy (vouched : Vouched good told s) (site : Site r s) (exports : Exports good told r)
    {sent : Sent} (sentBy : SentBy s sent) :
    ∀ route, sent.msg.body = .update route → told sent.dst route.attr := by
  intro route isUpdate
  obtain ⟨t, peer, alike, held, _, _, uttered⟩ := sentBy
  have quiet : Quiet s { t with outbox := s.outbox } :=
    ⟨⟨by rw [alike.router], alike.keys, alike.ribs⟩, Posts.of_outbox rfl⟩
  have owned : Owned t := ⟨(vouched.owned.quiet quiet).adj, (vouched.owned.quiet quiet).loc⟩
  rw [isUpdate] at uttered
  cases uttered with
  | update best announced known fit =>
    exact exports t _ peer best announced (site.alike alike) owned held known
      (vouched.loc (alike.locRib ▸ known)) fit

/-- Steps that leave the routes alone. -/
theorem quiet (vouched : Vouched good told s) (site : Site r s) (exports : Exports good told r)
    (quiet : Quiet s t) : Vouched good told t where
  owned := vouched.owned.quiet quiet
  adj held := vouched.adj (quiet.adjRoute _ _ ▸ held)
  loc held := vouched.loc (quiet.locRib ▸ held)
  sent sent member := by
    cases quiet.posts sent member with
    | inl earlier => exact vouched.sent sent earlier
    | inr sentBy => exact vouched.sentBy site exports sentBy

/-- The routes after a decision process have the attributes they had before. -/
theorem outcome {p : Pfx} (vouched : Vouched good told s) (outcome : Outcome s t p) :
    (∀ {a q route}, t.adjRoute a q = some route → good (some a) route.attr) ∧
      ∀ {q route}, t.locRib.findExact q = some route → good route.peer route.attr := by
  cases outcome with
  | shadowed _ _ _ same => exact same ▸ ⟨vouched.adj, vouched.loc⟩
  | ran g flagged keeps learned left compared installed =>
    constructor
    · intro a q route held
      rw [flagged.adj] at held
      split at held
      · obtain ⟨old, heldOld, rfl⟩ := Option.map_eq_some_iff.mp held
        exact (vouched.adj heldOld :)
      · exact vouched.adj held
    · intro q route held
      have elsewhere {entry : Option Route} (loc : LocAt s t p entry)
          (here : ∀ route, entry = some route → good route.peer route.attr) :
          good route.peer route.attr := by
        rw [loc q] at held
        split at held
        · exact here route held
        · exact vouched.loc held
      cases installed with
      | nothing _ same => exact vouched.loc (same ▸ held)
      | lost _ _ loc => exact elsewhere loc fun _ entry => by cases entry
      | unchanged w old _ _ heldOld _ _ loc =>
        refine elsewhere loc fun _ entry => ?_
        cases entry
        exact (vouched.loc heldOld :)
      | updated w won wonHeld _ loc =>
        refine elsewhere loc fun _ entry => ?_
        cases entry
        -- the winner is the route of the peer it names
        obtain ⟨peer, _⟩ := vouched.owned.adj wonHeld
        have attrs := vouched.adj wonHeld
        rw [← peer] at attrs
        exact attrs

theorem decided {p : Pfx} (vouched : Vouched good told s) (site : Site r s)
    (exports : Exports good told r) (h : bgpRouterDecisionProcess s p = .ok t) :
    Vouched good told t := by
  have outcome := (decisionProcess_ends s p).value h
  obtain ⟨adj, loc⟩ := vouched.outcome outcome
  have silent : Vouched good told { t with outbox := [] } :=
    ⟨⟨(vouched.owned.outcome outcome).adj, (vouched.owned.outcome outcome).loc⟩, adj, loc, by simp⟩
  refine ⟨vouched.owned.outcome outcome, adj, loc, fun sent member => ?_⟩
  cases decisionProcess_posts h sent member with
  | inl earlier => exact vouched.sent sent earlier
  | inr sentBy =>
    have before : SentBy { t with outbox := [] } sent :=
      sentBy.congr ⟨rfl, rfl, fun _ => rfl⟩
    exact silent.sentBy ((site.outcome outcome).alike ⟨rfl, rfl, fun _ => rfl⟩) exports before

theorem stored {addr : NetAddr} {route : Route} {attr : Attr} (vouched : Vouched good told s)
    (peer : route.peer = some addr) (external : route.flags.internal = false)
    (good' : good (some addr) attr) : Vouched good told (Verified.stored s addr route attr) where
  owned := vouched.owned.stored attr peer external
  adj held := by
    rw [stored_adjRoute] at held
    split at held
    next here =>
      obtain ⟨_, _, rfl⟩ := Option.map_eq_some_iff.mp held
      exact here.1 ▸ good'
    · exact vouched.adj held
  loc := vouched.loc
  sent := vouched.sent

theorem dropped (vouched : Vouched good told s) (addr : NetAddr) (p : Pfx) :
    Vouched good told (Verified.dropped s addr p) where
  owned := vouched.owned.dropped addr p
  adj held := by
    rw [dropped_adjRoute] at held
    split at held
    · cases held
    · exact vouched.adj held
  loc := vouched.loc
  sent := vouched.sent

theorem retired (vouched : Vouched good told s) (addr : NetAddr) (p : Pfx) :
    Vouched good told (Verified.retired s addr p) where
  owned := vouched.owned.retired addr p
  adj held := by
    rw [Verified.retired, setAdjFlags_adjRoute] at held
    split at held
    · obtain ⟨old, heldOld, rfl⟩ := Option.map_eq_some_iff.mp held
      exact (vouched.adj heldOld :)
    · exact vouched.adj held
  loc := vouched.loc
  sent := vouched.sent

theorem originated (vouched : Vouched good told s) (p : Pfx)
    (good' : good none (localRoute s p).attr) : Vouched good told (Verified.originated s p) where
  owned := vouched.owned.originated p
  adj := vouched.adj
  loc held := by
    rw [Verified.originated, Rib.findExact_addRoute] at held
    split at held
    · cases held
      exact good'
    · exact vouched.loc held
  sent := vouched.sent

theorem unoriginated (vouched : Vouched good told s) (p : Pfx) :
    Vouched good told (Verified.unoriginated s p) where
  owned := vouched.owned.unoriginated p
  adj := vouched.adj
  loc held := by
    rw [Verified.unoriginated, Rib.findExact_removeRoute] at held
    split at held
    · cases held
    · exact vouched.loc held
  sent := vouched.sent

theorem cleared (vouched : Vouched good told s) : Vouched good told (bgpRouterClearRib s) where
  owned := .cleared
  adj {a p route} held := by
    simp only [Router.adjRoute, bgpRouterClearRib, Table.lookup_mapVals] at held
    cases known : s.peers.lookup a with
    | none => simp [known] at held
    | some peer => simp [known] at held
  loc held := by simp [bgpRouterClearRib] at held
  sent := vouched.sent

/-- The steps other than received UPDATEs and WITHDRAWs. -/
theorem rules (exports : Exports good told r) :
    Invariant (Traced good told r) (fun s _ => Traced good told r s) (fun _ _ => True)
      fun _ => True where
  start traced := traced
  quiet traced quiet :=
    ⟨traced.site.alike quiet.toAlike, traced.vouched.quiet traced.site exports quiet⟩
  decides {s p} traced _ := by
    apply Ends.intro
    · intro t decided
      exact ⟨traced.site.outcome ((decisionProcess_ends s p).value decided),
        traced.vouched.decided traced.site exports decided⟩
    · exact fun _ _ => trivial
  fails _ := trivial

theorem update {addr : NetAddr} {peer : Peer} {route : Route} (vouched : Vouched good told s)
    (site : Site r s) (exports : Exports good told r) (held : s.peers.lookup addr = some peer)
    (imports : Imports good r addr (.update route))
    (h : bgpPeerProcessUpdate s addr peer route = .ok t) : Vouched good told t := by
  have still {f : Peer → Peer} (same : ∀ peer, peerConfig (f peer) = peerConfig peer) :
      Site r (s.modifyPeer addr f) := site.next (.modify addr same) rfl
  obtain ⟨attr, checked, ran⟩ | ⟨_, ⟨_, ran⟩ | ⟨_, rfl⟩⟩ := processUpdate_cases held h
  · have good' := imports s peer route attr site held rfl checked
    exact (vouched.stored rfl rfl good').decided (still fun _ => rfl) exports ran
  · exact (vouched.dropped addr route.pfx).decided (still fun _ => rfl) exports ran
  · split
    · exact vouched.dropped addr route.pfx
    · exact vouched

theorem withdraw {addr : NetAddr} {peer : Peer} {p : Pfx} (vouched : Vouched good told s)
    (site : Site r s) (exports : Exports good told r) (held : s.peers.lookup addr = some peer)
    (h : bgpPeerProcessWithdraw s addr peer p = .ok t) : Vouched good told t := by
  obtain ⟨_, rfl⟩ | ⟨_, u, _, decided, rfl⟩ := processWithdraw_cases held h
  · exact vouched
  · exact ((vouched.retired addr p).decided (site.next (.modify addr fun _ => rfl) rfl) exports
      decided).dropped addr p

theorem message {addr : NetAddr} {peer : Peer} {msg : Msg} {code : NetError}
    (vouched : Vouched good told s) (site : Site r s) (exports : Exports good told r)
    (held : s.peers.lookup addr = some peer) (imports : Imports good r addr msg.body)
    (h : bgpPeerHandleMessage s addr peer msg = .ok (code, t)) : Vouched good told t := by
  simp only [bgpPeerHandleMessage] at h
  split at h
  · cases h
    exact vouched
  simp only [except_map_eq_ok, Prod.mk.injEq] at h
  obtain ⟨_, h, _, rfl⟩ := h
  have counts : Quiet s (counted s addr) := (Quiet.refl s).modify fun _ => rfl
  have received : (counted s addr).peers.lookup addr =
      some { peer with recvSeqNum := peer.recvSeqNum + 1 } := by
    rw [counted, modifyPeer_lookup, if_pos rfl, held]
    rfl
  have start := (rules exports).quiet ⟨site, vouched⟩ counts
  cases body : msg.body with
  | update route =>
    simp only [body, bgpPeerSessionUpdateRcvd, except_bind_eq_ok] at h
    obtain ⟨⟨peer', u⟩, state, h⟩ := h
    obtain ⟨quiet', held'⟩ := DataInvariant.dataRcvd_quiet received state
    obtain ⟨site', vouched'⟩ := (rules exports).quiet start quiet'
    exact vouched'.update site' exports held' (body ▸ imports) h
  | withdraw p =>
    simp only [body, bgpPeerSessionWithdrawRcvd, except_bind_eq_ok] at h
    obtain ⟨⟨peer', u⟩, state, h⟩ := h
    obtain ⟨quiet', held'⟩ := DataInvariant.dataRcvd_quiet received state
    obtain ⟨site', vouched'⟩ := (rules exports).quiet start quiet'
    exact vouched'.withdraw site' exports held' h
  | close =>
    simp only [body] at h
    exact (((rules exports).closeRcvd start fun _ _ => trivial).value h).vouched
  | «open» routerId =>
    simp only [body] at h
    exact (((rules exports).openRcvd routerId start).value h).vouched

/-- One step of a router. -/
theorem exec {op : Op} (vouched : Vouched good told r) (exports : Exports good told r)
    (originates : Originates good r)
    (imports : ∀ src msg peer, op = .handleMessage src msg → r.peers.lookup src = some peer →
      Imports good r src msg.body)
    (h : Bgp.exec r op = .ok s) : Vouched good told s := by
  have rules := rules exports
  have start : Traced good told r r := ⟨.refl r, vouched⟩
  have here {u : Router} (configured : Configured r u) (env : u.env = r.env) : Site r u :=
    (Site.refl r).next configured env
  cases op with
  | handleMessage src msg =>
    simp only [Bgp.exec, execCode, bgpRouterHandleMessage, except_map_eq_ok] at h
    obtain ⟨⟨code, _⟩, h, rfl⟩ := h
    cases held : r.peers.lookup src with
    | none =>
      simp only [held, Except.ok.injEq, Prod.mk.injEq] at h
      exact h.2 ▸ vouched
    | some peer =>
      simp only [held] at h
      exact vouched.message (.refl r) exports held (imports src msg peer rfl held) h
  -- No other operation brings in a route that is not originated here.
  | openSession addr =>
    have traced : Traced good told r s :=
      Ends.value (Ends.map (rules.openSession start fun _ _ => trivial)) h
    exact traced.vouched
  | closeSession addr =>
    have traced : Traced good told r s :=
      Ends.value (Ends.map (rules.closeSession start fun _ _ => trivial)) h
    exact traced.vouched
  | sessionRefresh addr =>
    have traced : Traced good told r s :=
      Ends.value (Ends.map (Ends.map (rules.refresh start fun _ _ => trivial))) h
    exact traced.vouched
  | addNetwork p =>
    have added : Traced good told r (Verified.originated r p) :=
      ⟨here ⟨rfl, rfl, rfl, rfl, fun _ => rfl⟩ rfl, vouched.originated p (originates r p (.refl r))⟩
    exact ((rules.addNetwork start fun _ => added).value h).vouched
  | delNetwork p =>
    have deleted : Traced good told r (Verified.unoriginated r p) :=
      ⟨here ⟨rfl, rfl, rfl, rfl, fun _ => rfl⟩ rfl, vouched.unoriginated p⟩
    exact ((rules.delNetwork start fun _ => deleted).value h).vouched
  | rerun p =>
    have traced : Traced good told r s :=
      Ends.value (Ends.map (Ends.map (rules.rerun start fun _ _ => trivial))) h
    exact traced.vouched
  | clearRib =>
    cases h
    exact vouched.cleared
  | netChange rt env =>
    cases h
    exact ⟨⟨vouched.owned.adj, vouched.owned.loc⟩, vouched.adj, vouched.loc, vouched.sent⟩

end Vouched

/-! ## The network -/

section Network

variable {ι : Type} [DecidableEq ι] {owner : NetAddr → Option ι}
  {good : ι → Option NetAddr → Attr → Prop} {told : ι → NetAddr → Attr → Prop} {n n' : Network ι}

/-- All routers have good routes and tell nothing else. -/
def AllVouched (good : ι → Option NetAddr → Attr → Prop) (told : ι → NetAddr → Attr → Prop)
    (n : Network ι) : Prop :=
  ∀ i, Vouched (good i) (told i) (n.router i)

theorem AllVouched.setRouter (vouched : AllVouched good told n) {i : ι} {r : Router}
    (here : Vouched (good i) (told i) r) : AllVouched good told (n.setRouter i r) := by
  intro k
  by_cases same : k = i
  · subst same
    simpa only [Network.setRouter, Function.update_self] using here
  · simpa only [Network.setRouter, Function.update_of_ne same] using vouched k

omit [DecidableEq ι] in
theorem inFlight_posted {i : ι} {dst : NetAddr} {sent : Sent} {rest : List Sent}
    (head : n.inFlight i dst = sent :: rest) : sent ∈ (n.router i).outbox ∧ sent.dst = dst := by
  have member : sent ∈ n.inFlight i dst := by simp [head]
  simpa using List.mem_of_mem_drop member

/-- One step of a network in which every router exports, originates and imports as it should. -/
theorem netStep_vouched {op : NetOp ι} (vouched : AllVouched good told n)
    (exports : ∀ i, Exports (good i) (told i) (n.router i))
    (originates : ∀ i, Originates (good i) (n.router i))
    (outside : ∀ i src msg peer, op = .act i (.handleMessage src msg) →
      (n.router i).peers.lookup src = some peer → Imports (good i) (n.router i) src msg.body)
    (inside : ∀ i j dst sent rest peer, op = .deliver i dst → n.inFlight i dst = sent :: rest →
      sent ∈ (n.router i).outbox → sent.dst = dst → owner dst = some j →
      (n.router j).peers.lookup sent.src = some peer →
      Imports (good j) (n.router j) sent.src sent.msg.body)
    (h : netStep owner n op = .ok n') : AllVouched good told n' := by
  cases op with
  | act i op =>
    simp only [netStep, except_map_eq_ok] at h
    obtain ⟨r, stepped, rfl⟩ := h
    refine vouched.setRouter ((vouched i).exec (exports i) (originates i) ?_ stepped)
    rintro src msg peer rfl held
    exact outside i src msg peer rfl held
  | deliver i dst =>
    simp only [netStep] at h
    split at h
    -- The message delivered was posted by the router it comes from.
    · rename_i sent rest j head addressee
      obtain ⟨r, stepped, rfl⟩ := except_map_eq_ok.mp h
      obtain ⟨posted, toDst⟩ := inFlight_posted head
      have taken : AllVouched good told (n.take i dst) := vouched
      refine taken.setRouter ((vouched j).exec (exports j) (originates j) ?_ stepped)
      intro src msg peer isMessage held
      cases isMessage
      exact inside i j dst sent rest peer rfl head posted toDst addressee held
    · cases h
      exact vouched
  | lose i dst =>
    simp only [netStep, Except.ok.injEq] at h
    subst h
    split
    · exact vouched
    · exact vouched

/-- What holds of the surroundings of all routers, and of those that change, holds after a step. -/
theorem netStep_env {P : Env → Prop} {op : NetOp ι} (holds : ∀ i, P (n.router i).env)
    (changes : ∀ i rt env, op = .act i (.netChange rt env) → P env)
    (h : netStep owner n op = .ok n') : ∀ i, P (n'.router i).env := by
  have stepped {m : Network ι} {k : ι} {r : Router} (same : m.router = n.router) (here : P r.env) :
      ∀ i, P ((m.setRouter k r).router i).env := by
    intro i
    by_cases isK : i = k
    · subst isK
      simpa only [Network.setRouter, Function.update_self] using here
    · simpa only [Network.setRouter, Function.update_of_ne isK, same] using holds i
  cases op with
  | act i op =>
    simp only [netStep, except_map_eq_ok] at h
    obtain ⟨r, executed, rfl⟩ := h
    refine stepped rfl ?_
    by_cases change : ∃ rt env, op = .netChange rt env
    · obtain ⟨rt, env, rfl⟩ := change
      cases executed
      exact changes i rt env rfl
    · have site := exec_site (fun rt env same => change ⟨rt, env, same⟩) executed
      exact site.env ▸ holds i
  | deliver i dst =>
    simp only [netStep] at h
    split at h
    · obtain ⟨r, executed, rfl⟩ := except_map_eq_ok.mp h
      have site := exec_site (fun _ _ => by simp) executed
      have same : (n.take i dst).router = n.router := rfl
      exact stepped same (site.env ▸ holds _)
    · cases h
      exact holds
  | lose i dst =>
    simp only [netStep, Except.ok.injEq] at h
    subst h
    split
    · exact holds
    · exact holds

end Network

end Cbgp.Verified

import Cbgp.Bgp.Network
import Cbgp.Verified.Steps

/-! # What a step sends

Every message a decision process adds to the outbox exports a route of the Loc-RIB it leaves
(`decisionProcess_posts`), and every message any step adds goes to a real peer, from the address
configured for the session with it (`exec_addressed`).
-/

namespace Cbgp.Verified

open Cbgp.Lib Cbgp.Net Cbgp.Bgp

/-! ## Decision processes -/

section Decides

variable {r r' : Router} {p : Pfx}

/-- What was sent until the end, seen from the end. -/
def PostsBy (r r' : Router) : Prop :=
  ∀ sent ∈ r'.outbox, sent ∈ r.outbox ∨ SentBy r' sent

theorem PostsBy.of_outbox (same : r'.outbox = r.outbox) : PostsBy r r' :=
  fun _ member => .inl (same ▸ member)

theorem disseminate_postsBy {s : Router} {route : Option Route} (same : s.outbox = r.outbox)
    (known : ∀ best, route = some best → s.locRib.findExact best.pfx = some best)
    (h : disseminate s p route = .ok r') : PostsBy r r' := by
  intro sent member
  have quiet := (disseminate_quiet s p route known).value h
  cases quiet.posts sent member with
  | inl earlier => exact .inl (same ▸ earlier)
  | inr sentBy => exact .inr (sentBy.congr quiet.toAlike.symm)

theorem rtAddRoute_frame {s s' : Router} {route : Route} (h : bgpRouterRtAddRoute s route = .ok s') :
    s'.outbox = s.outbox ∧ s'.locRib = s.locRib := by
  simp only [bgpRouterRtAddRoute] at h
  split at h
  · cases h
    exact ⟨rfl, rfl⟩
  · cases h

theorem rtDelRoute_frame {s s' : Router} (h : bgpRouterRtDelRoute s p = .ok s') :
    s'.outbox = s.outbox := by
  simp only [bgpRouterRtDelRoute] at h
  split at h
  · cases h
    rfl
  · cases h

theorem bestFlagOff_outbox (s : Router) (old : Route) :
    (bgpRouterBestFlagOff s old).outbox = s.outbox := by
  simp only [bgpRouterBestFlagOff]
  split
  · rfl
  · rfl

theorem noBestRoute_posts {s : Router} {old : Option Route} (same : s.outbox = r.outbox)
    (h : noBestRoute s p old = .ok r') : PostsBy r r' := by
  cases old with
  | none =>
    cases h
    exact .of_outbox same
  | some old =>
    simp only [noBestRoute, except_bind_eq_ok] at h
    obtain ⟨t, deleted, told⟩ := h
    refine disseminate_postsBy ?_ (by simp) told
    rw [rtDelRoute_frame deleted]
    exact (bestFlagOff_outbox s old).trans same

theorem updateBestRoute_posts {s : Router} {old : Option Route} {winner : NetAddr} {route : Route}
    (same : s.outbox = r.outbox) (h : updateBestRoute s p old winner route = .ok r') :
    PostsBy r r' := by
  simp only [updateBestRoute, except_bind_eq_ok] at h
  obtain ⟨t, added, told⟩ := h
  obtain ⟨outbox, locRib⟩ := rtAddRoute_frame added
  refine disseminate_postsBy ?_ (fun best isBest => ?_) told
  · rw [outbox]
    cases old with
    | none => exact same
    | some old => exact (bestFlagOff_outbox s old).trans same
  · -- the route that is disseminated has just been installed
    cases isBest
    rw [locRib, Rib.findExact_addRoute]
    exact if_pos rfl

theorem installBest_posts {s : Router} {old : Option Route} {left : List Cand}
    (same : s.outbox = r.outbox) (h : installBest s p old left = .ok r') : PostsBy r r' := by
  cases left with
  | nil => exact noBestRoute_posts same h
  | cons w rest =>
    simp only [installBest] at h
    split at h
    · cases h
    · split at h
      · exact updateBestRoute_posts same h
      · split at h
        · simp only [unchangedBestRoute] at h
          exact .of_outbox ((rtAddRoute_frame h).1.trans same)
        · exact updateBestRoute_posts same h

/-- A decision process sends exports of the Loc-RIB it leaves. -/
theorem decisionProcess_posts (h : bgpRouterDecisionProcess r p = .ok r') : PostsBy r r' := by
  simp only [bgpRouterDecisionProcess] at h
  split at h
  · cases h
    exact .of_outbox rfl
  · simp only [except_bind_eq_ok] at h
    obtain ⟨left, _, igp, _, installed⟩ := h
    refine installBest_posts ?_ installed
    rfl

end Decides

/-! ## Addresses -/

/-- The message goes to a real peer of the router, from the address configured for it. -/
def ToPeer (r : Router) (sent : Sent) : Prop :=
  ∃ peer, r.peers.lookup sent.dst = some peer ∧ peer.virtual = false ∧ sent.src = peer.srcAddr

theorem Configured.lookup {r s : Router} (configured : Configured r s) {a : NetAddr} {peer : Peer}
    (held : s.peers.lookup a = some peer) :
    ∃ peer', r.peers.lookup a = some peer' ∧ peerConfig peer' = peerConfig peer := by
  have same := configured.peers a
  rw [held] at same
  exact Option.map_eq_some_iff.mp same.symm

theorem ToPeer.of_configured {r s : Router} {sent : Sent} (configured : Configured r s)
    (toPeer : ToPeer s sent) : ToPeer r sent := by
  obtain ⟨peer, held, real, src⟩ := toPeer
  obtain ⟨peer', held', same⟩ := configured.lookup held
  have isVirtual : (peerConfig peer').virtual = (peerConfig peer).virtual := by rw [same]
  have srcAddr : (peerConfig peer').srcAddr = (peerConfig peer).srcAddr := by rw [same]
  exact ⟨peer', held', isVirtual.trans real, src.trans srcAddr.symm⟩

theorem SentBy.toPeer {r : Router} {sent : Sent} (sentBy : SentBy r sent) : ToPeer r sent := by
  obtain ⟨s, peer, alike, held, real, src, _⟩ := sentBy
  exact ToPeer.of_configured (.of_alike alike) ⟨peer, held, real, src⟩

/-- The configuration is that of `r`, and what is new in the outbox is for its peers. -/
structure Mails (r s : Router) : Prop where
  configured : Configured r s
  outbox : ∀ sent ∈ s.outbox, sent ∈ r.outbox ∨ ToPeer r sent

namespace Mails

variable {r s t : Router}

theorem refl (r : Router) : Mails r r := ⟨.refl r, fun _ => .inl⟩

/-- A step whose messages are sent by the router, before or after it. -/
theorem next (mails : Mails r s) (configured : Configured s t)
    (posts : ∀ sent ∈ t.outbox, sent ∈ s.outbox ∨ ToPeer s sent) : Mails r t := by
  refine ⟨mails.configured.trans configured, fun sent member => ?_⟩
  cases posts sent member with
  | inl earlier => exact mails.outbox sent earlier
  | inr toPeer => exact .inr (toPeer.of_configured mails.configured)

theorem silent (mails : Mails r s) (configured : Configured s t) (same : t.outbox = s.outbox) :
    Mails r t :=
  mails.next configured fun _ member => .inl (same ▸ member)

theorem rules (r : Router) :
    DataInvariant (Mails r) (fun s _ => Mails r s) (fun _ _ => True) fun _ => True where
  start kept := kept
  quiet kept quiet := kept.next (.of_alike quiet.toAlike) fun sent member =>
    (quiet.posts sent member).imp_right SentBy.toPeer
  decides {s p} kept _ := by
    apply Ends.intro
    · intro t decided
      have configured := Configured.of_outcome ((decisionProcess_ends s p).value decided)
      refine kept.next configured fun sent member => ?_
      exact (decisionProcess_posts decided sent member).imp_right fun sentBy =>
        sentBy.toPeer.of_configured configured
    · exact fun _ _ => trivial
  fails _ := trivial
  store kept _ _ _ := kept.silent (.modify _ fun _ => rfl) rfl
  drop kept _ := kept.silent (.modify _ fun _ => rfl) rfl
  dropBest kept _ := kept.silent (.modify _ fun _ => rfl) rfl
  retire kept := kept.silent (.modify _ fun _ => rfl) rfl
  dropRetired kept _ := kept.silent (.modify _ fun _ => rfl) rfl

end Mails

/-- Whatever a router sends goes to a real peer, from the address configured for it. -/
theorem exec_addressed {r r' : Router} {op : Op} (h : exec r op = .ok r') :
    ∀ sent ∈ r'.outbox, sent ∈ r.outbox ∨ ToPeer r sent := by
  have rules := Mails.rules r
  have start := Mails.refl r
  have mails : Mails r r' := by
    refine Ends.value (rules.exec start (fun _ _ => trivial) ?_ ?_ ?_ ?_) h
    · rintro p rfl
      exact rules.addNetwork start fun _ => start.silent ⟨rfl, rfl, rfl, rfl, fun _ => rfl⟩ rfl
    · rintro p rfl
      exact rules.delNetwork start fun _ => start.silent ⟨rfl, rfl, rfl, rfl, fun _ => rfl⟩ rfl
    · rintro rfl
      exact start.silent (exec_configured (show exec r .clearRib = .ok _ from rfl)) rfl
    · rintro rt env rfl
      exact start.silent ⟨rfl, rfl, rfl, rfl, fun _ => rfl⟩ rfl
  exact mails.outbox

/-- A step of a network leaves the configuration of its routers alone. -/
theorem netStep_configured {ι : Type} [DecidableEq ι] {owner : NetAddr → Option ι}
    {n n' : Network ι} {op : NetOp ι} (h : netStep owner n op = .ok n') (k : ι) :
    Configured (n.router k) (n'.router k) := by
  have stepped {m : ι} {r : Router} {o : Op} (n : Network ι) (h : exec (n.router m) o = .ok r) :
      Configured (n.router k) ((n.setRouter m r).router k) := by
    simp only [Network.setRouter]
    by_cases same : k = m
    · subst same
      rw [Function.update_self]
      exact exec_configured h
    · rw [Function.update_of_ne same]
      exact Configured.refl _
  cases op with
  | act m o =>
    simp only [netStep, except_map_eq_ok] at h
    obtain ⟨r, executed, rfl⟩ := h
    exact stepped n executed
  | deliver m d =>
    simp only [netStep] at h
    split at h
    · obtain ⟨r, executed, rfl⟩ := except_map_eq_ok.mp h
      exact stepped (n.take m d) executed
    · cases h
      exact Configured.refl _
  | lose m d =>
    simp only [netStep, Except.ok.injEq] at h
    subst h
    split
    · exact Configured.refl _
    · exact Configured.refl _

end Cbgp.Verified

import Cbgp.Verified.BestFlag
import Cbgp.Verified.Emission

/-! # Removing a local network

While a router originates a prefix, its local route shadows what it learns for it.  When the network
is deleted, `bgp_router_del_network` empties the Loc-RIB entry and withdraws the prefix without
running the decision process: the learned route comes back exactly when there is none
(`delNetwork_restores_iff`).
-/

namespace Cbgp.Verified

open Cbgp.Lib Cbgp.Net Cbgp.Bgp

/-! ## The property -/

/-- The Loc-RIB agrees with the Adj-RIB-Ins for a prefix: it has a route when there is a candidate,
with the attributes of the one the decision process selects. -/
structure LocAgreesAt (r : Router) (p : Pfx) : Prop where
  none_iff : r.locRib.findExact p = none ↔ bgpRouterGetFeasibleRoutes r p = []
  selected : ∀ route, r.locRib.findExact p = some route →
    ∃ w, compareRoutes r (bgpRouterGetFeasibleRoutes r p) = .ok [w] ∧ Attr.Same route.attr w.attr

/-- The Loc-RIB agrees with the Adj-RIB-Ins. -/
def LocAgrees (r : Router) : Prop := ∀ p, LocAgreesAt r p

/-- Received UPDATEs and WITHDRAWs. -/
def DataStep : Op → Prop
  | .handleMessage _ ⟨_, .update _⟩ | .handleMessage _ ⟨_, .withdraw _⟩ => True
  | _ => False

/-- Every established peer messages leave for has been told of the Loc-RIB entry. -/
def Informed (r r' : Router) (p : Pfx) : Prop :=
  ∀ a peer, r.peers.lookup a = some peer → peer.sessionState = .established →
    delivers r.env a peer = true →
    ∃ bodies, Told r' a peer p (r'.locRib.findExact p) bodies ∧
      toward a r'.outbox =
        toward a r.outbox ++ numbered peer.srcAddr a peer.sendSeqNum bodies

/-- A deletion that led from `r` to `r'` restored the learned route. -/
structure Restored (r r' : Router) (p : Pfx) : Prop where
  agrees : LocAgreesAt r' p
  announcer : ∀ route w, r'.locRib.findExact p = some route →
    compareRoutes r' (bgpRouterGetFeasibleRoutes r' p) = .ok [w] → route.peer = some w.addr
  informed : Informed r r' p

/-! ## While the network is originated -/

/-- The prefix is a local network and its route is in the Loc-RIB. -/
structure Shadowed (p : Pfx) (r : Router) : Prop where
  listed : isLocal r p = true
  held : ∃ route, r.locRib.findExact p = some route ∧ route.flags.internal = true

theorem Shadowed.congr {p : Pfx} {r r' : Router} (shadowed : Shadowed p r)
    (nets : r'.localNets = r.localNets) (loc : r'.locRib.findExact p = r.locRib.findExact p) :
    Shadowed p r' where
  listed := by
    rw [isLocal, nets]
    exact shadowed.listed
  held := by
    rw [loc]
    exact shadowed.held

/-- A decision process leaves the local route alone. -/
theorem Shadowed.outcome {p q : Pfx} {r r' : Router} (shadowed : Shadowed p r)
    (outcome : Outcome r r' q) : Shadowed p r' := by
  cases outcome with
  | shadowed _ _ _ same => exact same ▸ shadowed
  | ran g flagged keeps learned left compared installed =>
    obtain ⟨route, held, internal⟩ := shadowed.held
    have elsewhere : ipPrefixMask p ≠ ipPrefixMask q := by
      intro same
      rw [learned route (r.locRib.findExact_congr same ▸ held)] at internal
      cases internal
    refine shadowed.congr flagged.localNets ?_
    cases installed with
    | nothing _ loc => rw [loc]
    | lost _ _ loc => rw [loc p, if_neg elsewhere]
    | unchanged _ _ _ _ _ _ _ loc => rw [loc p, if_neg elsewhere]
    | updated _ _ _ _ loc => rw [loc p, if_neg elsewhere]

theorem shadowed_rules (p : Pfx) :
    DataInvariant (Shadowed p) (fun r _ => Shadowed p r) (fun _ _ => True) fun _ => True where
  start shadowed := shadowed
  quiet shadowed quiet := shadowed.congr quiet.localNets (by rw [quiet.locRib])
  decides shadowed _ :=
    (decisionProcess_ends _ _).mono (fun _ => shadowed.outcome) fun _ _ => trivial
  fails _ := trivial
  store shadowed _ _ _ := shadowed.congr rfl rfl
  drop shadowed _ := shadowed.congr rfl rfl
  dropBest shadowed _ := shadowed.congr rfl rfl
  retire shadowed := shadowed.congr rfl rfl
  dropRetired shadowed _ := shadowed.congr rfl rfl

theorem Shadowed.exec {p : Pfx} {r r' : Router} {op : Op} (shadowed : Shadowed p r)
    (data : DataStep op) (h : exec r op = .ok r') : Shadowed p r' := by
  refine Ends.value ((shadowed_rules p).exec shadowed (fun _ _ => trivial) ?_ ?_ ?_ ?_) h
  · rintro q rfl
    exact data.elim
  · rintro q rfl
    exact data.elim
  · rintro rfl
    exact data.elim
  · rintro rt env rfl
    exact data.elim

/-- Adding the network shadows the prefix. -/
theorem shadowed_of_add {p : Pfx} {r r' : Router} (foreign : isLocal r p = false)
    (added : Bgp.exec r (.addNetwork p) = .ok r') : Shadowed p r' := by
  rw [exec_addNetwork, foreign, if_neg (by simp)] at added
  have sends := (disseminate_ends _ _ _).value added
  have here : Shadowed p (originated r p) := by
    refine ⟨isLocal_iff.mpr ⟨localRoute r p, ?_, rfl⟩, localRoute r p, ?_, rfl⟩
    · simp [originated]
    · exact (Rib.findExact_addRoute _ _ p).trans (if_pos rfl)
  exact here.congr sends.localNets (by rw [sends.locRib])

/-! ## Deletion -/

/-- Sending does not change the candidates. -/
theorem Sends.candidates {r s : Router} (sends : Sends r s) (p : Pfx) :
    (bgpRouterGetFeasibleRoutes s p).Perm (bgpRouterGetFeasibleRoutes r p) := by
  refine candidates_perm fun a => candAt_congr (sends.sessionAt a) ?_ fun route _ => ?_
  · rw [sends.adjRoute]
  · rw [nextHopReachable, sends.rt]
    rfl

/-- Deleting a network that was added and received routes for in between restores the learned
route exactly when no candidate is there. -/
theorem delNetwork_restores_iff {r₀ r₁ r₂ r₃ : Router} {p : Pfx} (foreign : isLocal r₀ p = false)
    (added : exec r₀ (.addNetwork p) = .ok r₁)
    (received : Reach exec (fun _ op => DataStep op) r₁ r₂)
    (deleted : exec r₂ (.delNetwork p) = .ok r₃) :
    Restored r₂ r₃ p ↔ bgpRouterGetFeasibleRoutes r₂ p = [] := by
  have shadowed : Shadowed p r₂ :=
    received.invariant (shadowed_of_add foreign added) fun kept data => kept.exec data
  rw [exec_delNetwork, shadowed.listed, if_pos rfl] at deleted
  have sends := (disseminate_ends _ _ _).value deleted
  have emptied : r₃.locRib.findExact p = none := by
    rw [sends.locRib, unoriginated, Rib.findExact_removeRoute, if_pos rfl]
  -- The deletion runs no decision process: the candidates stay, and the Loc-RIB entry goes.
  have candidates : bgpRouterGetFeasibleRoutes r₃ p = [] ↔ bgpRouterGetFeasibleRoutes r₂ p = [] := by
    rw [← List.length_eq_zero_iff, (sends.candidates p).length_eq, List.length_eq_zero_iff]
    rfl
  constructor
  · intro restored
    exact candidates.mp (restored.agrees.none_iff.mp emptied)
  -- Without candidates an empty Loc-RIB entry is right, and the peers are told of the withdrawal.
  · intro none_left
    refine ⟨⟨iff_of_true emptied (candidates.mpr none_left), fun route held => ?_⟩,
      fun route w held => ?_, ?_⟩
    · rw [emptied] at held
      cases held
    · rw [emptied] at held
      cases held
    · intro a peer held up line
      have enabled : bgpPeerSendEnabled peer = true := by
        simp only [delivers, Bool.and_eq_true] at line
        simp [bgpPeerSendEnabled, line.1]
      obtain ⟨bodies, told, _, tells⟩ := disseminate_told (r := unoriginated r₂ p) held deleted
      obtain ⟨_, _, talk⟩ := tells.told held
      refine ⟨bodies, ?_, ?_⟩
      · rw [emptied]
        cases told enabled with
        | down notUp => exact absurd up notUp
        | silent _ unheld _ => exact .silent up unheld (.inl rfl)
        | withdrawn _ announced _ => exact .withdrawn up announced (.inl rfl)
        | announced _ best _ some_ => cases some_
      · rw [talk.sent]
        have sameLine : delivers (unoriginated r₂ p).env a peer = true := line
        rw [sameLine, if_pos rfl]
        rfl

theorem Fresh.locAgrees {r : Router} (fresh : Fresh r) : LocAgrees r := by
  intro p
  refine ⟨iff_of_true (fresh.loc p) ?_, fun route held => by simp [fresh.loc] at held⟩
  refine List.eq_nil_iff_forall_not_mem.mpr fun c member => ?_
  obtain ⟨_, route, _, _, held, _⟩ := mem_candidates.mp member
  simp [fresh.adj] at held

/-- A network is added to `twoPeers`, `ops` happen, and it is deleted. -/
def addAndDelete (ops : List Op) : Except Abort (Router × Router × Router) := do
  let r₁ ← exec twoPeers (.addNetwork tenNet)
  let r₂ ← ops.foldlM exec r₁
  let r₃ ← exec r₂ (.delNetwork tenNet)
  .ok (r₁, r₂, r₃)

theorem addAndDelete_eq {ops : List Op} {r₁ r₂ r₃ : Router}
    (data : ∀ op ∈ ops, DataStep op) (h : addAndDelete ops = .ok (r₁, r₂, r₃)) :
    exec twoPeers (.addNetwork tenNet) = .ok r₁ ∧ Reach exec (fun _ op => DataStep op) r₁ r₂ ∧
      exec r₂ (.delNetwork tenNet) = .ok r₃ := by
  simp only [addAndDelete, except_bind_eq_ok, Except.ok.injEq, Prod.mk.injEq] at h
  obtain ⟨_, added, _, ran, _, deleted, rfl, rfl, rfl⟩ := h
  exact ⟨added, Reach.of_foldlM (fun _ member => data _ (loopStates_snd member)) ran, deleted⟩

/-- A route that is received while the network is originated stays out of the Loc-RIB. -/
theorem delNetwork_learned_lost : ¬ ∀ (r₀ r₁ r₂ r₃ : Router) (p : Pfx), LocAgrees r₀ →
    isLocal r₀ p = false → exec r₀ (.addNetwork p) = .ok r₁ →
    Reach exec (fun _ op => DataStep op) r₁ r₂ → exec r₂ (.delNetwork p) = .ok r₃ →
    Restored r₂ r₃ p := by
  intro always
  have ran : okAnd (addAndDelete [updateFrom 3 [7] (by decide)]) (fun rs =>
      (rs.2.2.locRib.findExact tenNet).isNone &&
        !(bgpRouterGetFeasibleRoutes rs.2.2 tenNet).isEmpty) = true := by
    decide +kernel
  obtain ⟨⟨r₁, r₂, r₃⟩, ran, observed⟩ := okAnd_iff.mp ran
  obtain ⟨added, received, deleted⟩ := addAndDelete_eq (by simp [updateFrom, DataStep]) ran
  simp only [Bool.and_eq_true, Option.isNone_iff_eq_none] at observed
  have restored := always twoPeers r₁ r₂ r₃ tenNet twoPeers_fresh.locAgrees rfl added received deleted
  rw [restored.agrees.none_iff.mp observed.1] at observed
  cases observed.2

/-- A route that comes and goes while the network is originated. -/
theorem delNetwork_restores_withdrawn : ∃ r₂ r₃ : Router,
    exec r₂ (.delNetwork tenNet) = .ok r₃ ∧ bgpRouterGetFeasibleRoutes r₂ tenNet = [] ∧
      Restored r₂ r₃ tenNet := by
  have ran : okAnd (addAndDelete
      [updateFrom 3 [7] (by decide), .handleMessage 3 ⟨0, .withdraw tenNet⟩])
      (fun rs => (bgpRouterGetFeasibleRoutes rs.2.1 tenNet).isEmpty) = true := by
    decide +kernel
  obtain ⟨⟨r₁, r₂, r₃⟩, ran, observed⟩ := okAnd_iff.mp ran
  obtain ⟨added, received, deleted⟩ := addAndDelete_eq (by simp [updateFrom, DataStep]) ran
  have none_left : bgpRouterGetFeasibleRoutes r₂ tenNet = [] := by simpa using observed
  exact ⟨r₂, r₃, deleted, none_left,
    (delNetwork_restores_iff rfl added received deleted).mpr none_left⟩

end Cbgp.Verified

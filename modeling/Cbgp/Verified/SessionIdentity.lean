import Cbgp.Verified.SessionNumbers

/-! # Knowing the neighbour

The router identifier of a peer is taken from its OPEN when the session waits for it, and not when
the OPEN finds the session ACTIVE.  As long as no OPEN is taken in ACTIVE, an established session
knows the router at its other end, and the uses of the identifier — the test that keeps a route from
going back to where it came from, the tie-break of the decision process — see real identifiers
(`established_knows`).
-/

namespace Cbgp.Verified

open Cbgp.Lib Cbgp.Net Cbgp.Bgp

/-! ## One endpoint -/

/-- An established endpoint knows the identifier of its neighbour, any other has none. -/
structure Endpoint.Knows (rid : NetAddr) (e : Endpoint) : Prop where
  up : e.state = .established → e.routerId = rid
  down : e.state ≠ .established → e.routerId = netAddrAny

/-- An OPEN. -/
def isOpen : MsgBody → Bool
  | .open _ => true
  | _ => false

section Control

variable {rid neighbour : NetAddr} {line ok : Bool} {e e' : Endpoint} {sent : List Msg}

theorem Endpoint.knows_reset {state : SessionState} (down : state ≠ .established) :
    (Endpoint.reset state).Knows neighbour :=
  ⟨fun isUp => absurd isUp down, fun _ => rfl⟩

theorem control_knows {input : Input} (knows : e.Knows neighbour) (tidy : e.Tidy)
    (of : ∀ msg, input = .recv msg → MsgOf neighbour msg ∧
      (isOpen msg.body = true → e.state ≠ .active))
    (h : control rid line ok e input = .ok (e', sent)) : e'.Knows neighbour := by
  cases control_reacts h with
  | stays => exact knows
  -- The identifier learnt is kept while the session is up and forgotten with it.
  | opens => exact ⟨by simp, fun _ => rfl⟩
  | unsent | closes | loses | closed => exact Endpoint.knows_reset (by simp)
  | hears heard inOrder data live =>
    have up := live.resolve_left (tidy.refuses_route (of _ heard).1 inOrder data)
    exact ⟨fun _ => knows.up up, fun down => absurd rfl down⟩
  | ignores heard isClose down =>
    refine ⟨fun up => ?_, knows.down⟩
    rw [show e.state = .established from up] at down
    simp at down
  | answers heard opening isActive => exact absurd isActive ((of _ heard).2 (by rw [opening]; rfl))
  | meets heard opening waits =>
    have introduced := (of _ heard).1
    simp only [MsgOf, opening] at introduced
    exact ⟨fun _ => introduced.2, fun down => absurd rfl down⟩

theorem Endpoint.Step.knows {input : Input} (step : Endpoint.Step rid line ok e input e' sent)
    (knows : e.Knows neighbour) (tidy : e.Tidy)
    (of : ∀ msg, input = .recv msg → MsgOf neighbour msg ∧
      (isOpen msg.body = true → e.state ≠ .active)) : e'.Knows neighbour := by
  cases step with
  | mk controlled routes silent =>
    have kept := control_knows knows tidy of controlled
    exact ⟨kept.up, kept.down⟩

end Control

/-! ## Runs -/

section Runs

variable {ι : Type} [DecidableEq ι] {owner : NetAddr → Option ι} {n n' n₀ : Network ι} {i j k : ι}
  {a b a' c : NetAddr} {op : NetOp ι}

/-- The step delivers the next message of router `j` to an address. -/
def isDelivery (j : ι) (a : NetAddr) : NetOp ι → Bool
  | .deliver k d => decide (k = j ∧ d = a)
  | _ => false

/-- Router `i` takes no OPEN of its neighbour `j` while its end of the session is ACTIVE. -/
def NoPassiveOpen (i j : ι) (a b : NetAddr) (n : Network ι) (op : NetOp ι) : Prop :=
  isDelivery j a op = true → ((wire n j a).head?.any fun msg => isOpen msg.body) = true →
    (side n i b).state ≠ .active

instance (i j : ι) (a b : NetAddr) (n : Network ι) (op : NetOp ι) :
    Decidable (NoPassiveOpen i j a b n op) :=
  inferInstanceAs (Decidable (_ → _ → _))

/-- The steps of a session in which router `i` is always introduced to its neighbour. -/
def Introduced (owner : NetAddr → Option ι) (i j : ι) (a b : NetAddr) (n : Network ι)
    (op : NetOp ι) : Prop :=
  Unwrapped owner i j a b n op ∧ NoPassiveOpen i j a b n op

theorem Move.knows (move : Move n n' i j a b op) (orderly : Orderly n i j a b)
    (knows : (side n i b).Knows (n.router j).rid) (allowed : NoPassiveOpen i j a b n op) :
    (side n' i b).Knows (n.router j).rid := by
  cases move with
  | act input source spontaneous step moved stays out back =>
    rw [moved]
    exact step.knows knows orderly.left fun msg isRecv => absurd isRecv (spontaneous msg)
  | take step moved stays out back =>
    rw [moved]
    refine step.knows knows orderly.left fun msg isRecv => ?_
    cases isRecv
    refine ⟨orderly.back _ (by rw [back]; exact List.mem_cons_self), fun isOpening => ?_⟩
    exact allowed (by simp [isDelivery]) (by simp [back, isOpening])
  | lose moved stays out back => exact moved ▸ knows
  | rest moved stays out back => exact moved ▸ knows

omit [DecidableEq ι] in
/-- The other end moved. -/
theorem Move.side_other (move : Move n n' j i b a op) : side n' i b = side n i b := by
  cases move with
  | act input source spontaneous step moved stays out back => exact stays
  | take step moved stays out back => exact stays
  | lose moved stays out back => exact stays
  | rest moved stays out back => exact stays

theorem knows_of_reach {guard : Network ι → NetOp ι → Prop}
    (introduced : ∀ n op, guard n op → Introduced owner i j a b n op)
    (fresh : FreshPair owner n₀ i j a b) (reached : Reach (netStep owner) guard n₀ n) :
    InSession owner n i j a b ∧ (side n i b).Knows (n.router j).rid := by
  induction reached with
  | start =>
    refine ⟨fresh.inSession, ?_⟩
    rw [fresh.left]
    exact Endpoint.knows_reset (by simp)
  | @next n n' op _ allowed stepped inductionHypothesis =>
    obtain ⟨inSession, knows⟩ := inductionHypothesis
    obtain ⟨unwrapped, noPassive⟩ := introduced n op allowed
    refine ⟨inSession.step unwrapped stepped, ?_⟩
    rw [(netStep_configured stepped j).rid]
    obtain ⟨_, moved⟩ := netStep_moves inSession.addressed inSession.paired unwrapped.1 stepped
    cases moved with
    | inl left => exact left.knows inSession.orderly knows noPassive
    | inr right => exact right.side_other ▸ knows

/-! ## The uses of the identifier -/

/-- The first test of `_bgp_router_advertise_to_peer`: the route came from the peer. -/
def toOriginator (r : Router) (dst : Peer) (route : Route) : Bool :=
  okAnd (routePeerGet r route) fun src => src.any fun src => dst.routerId = src.routerId

theorem exportRoute_toOriginator {r : Router} {dst : Peer} {route : Route}
    (back : toOriginator r dst route = true) : exportRoute r dst route = .ok none := by
  obtain ⟨src, got, same⟩ := okAnd_iff.mp back
  simp only [exportRoute, got, bind, Except.bind]
  exact if_pos same

/-- Routers have identifiers, all different. -/
structure Identified (n : Network ι) : Prop where
  some_ : ∀ k, (n.router k).rid ≠ netAddrAny
  distinct : ∀ j k, (n.router j).rid = (n.router k).rid → j = k

theorem reach_rid {guard : Network ι → NetOp ι → Prop} (reached : Reach (netStep owner) guard n₀ n)
    (k : ι) : (n.router k).rid = (n₀.router k).rid := by
  induction reached with
  | start => rfl
  | next _ _ stepped inductionHypothesis =>
    exact ((netStep_configured stepped k).rid).trans inductionHypothesis

/-- In every run in which router `i` takes no OPEN in ACTIVE, its established session with router
`j` knows the identifier of `j`; a route from another neighbour `k` is not taken for a route of `j`;
and the decision process sees the identifier of `j`. -/
theorem established_knows (fresh : FreshPair owner n₀ i j a b) (fresh' : FreshPair owner n₀ i k a' c)
    (identified : Identified n₀)
    (reached : Reach (netStep owner) (fun n op =>
      Introduced owner i j a b n op ∧ Introduced owner i k a' c n op) n₀ n) :
    ((side n i b).state = .established → (side n i b).routerId = (n.router j).rid) ∧
    (∀ dst route, (n.router i).peers.lookup b = some dst → dst.sessionState = .established →
      route.peer = some c → toOriginator (n.router i) dst route = true → k = j) ∧
    (∀ p, ∀ cand ∈ bgpRouterGetFeasibleRoutes (n.router i) p, cand.addr = b →
      cand.peerRouterId = (n.router j).rid) := by
  obtain ⟨_, knows⟩ := knows_of_reach (fun _ _ both => both.1) fresh reached
  obtain ⟨inSession', knows'⟩ := knows_of_reach (fun _ _ both => both.2) fresh' reached
  refine ⟨knows.up, fun dst route held up learned back => ?_, fun p cand member here => ?_⟩
  · obtain ⟨src, heldSrc, _, _, sideSrc, _⟩ := inSession'.paired.left.endpoint_eq
    have sideDst : side n i b = endpoint dst := by simp [side, held]
    have sameId : dst.routerId = src.routerId := by
      simpa [toOriginator, routePeerGet, learned, heldSrc, okAnd] using back
    have idDst : dst.routerId = (n.router j).rid := by
      have known := knows.up
      rw [sideDst] at known
      exact known up
    rw [reach_rid reached] at idDst
    by_cases upSrc : (side n i c).state = .established
    · have idSrc := knows'.up upSrc
      rw [sideSrc, reach_rid reached] at idSrc
      exact identified.distinct k j (idSrc.symm.trans (sameId.symm.trans idDst))
    · -- a session that is down has no identifier
      have idSrc := knows'.down upSrc
      rw [sideSrc] at idSrc
      exact absurd (idDst.symm.trans (sameId.trans idSrc)) (identified.some_ j)
  · simp only [bgpRouterGetFeasibleRoutes, List.mem_filterMap] at member
    obtain ⟨⟨addr, peer⟩, inPeers, isCand⟩ := member
    have held := Table.mem_entries_iff.mp inPeers
    simp only [candidate] at isCand
    split at isCand
    next up =>
      split at isCand
      · cases isCand
      · split at isCand
        · cases isCand
          subst here
          have known := knows.up
          rw [show side n i addr = endpoint peer by simp [side, held]] at known
          exact known up
        · cases isCand
    · cases isCand

end Runs

/-! ## A session opened passively -/

theorem twoRouters_identified : Identified twoRouters where
  some_ k := by cases k <;> decide
  distinct j k same := by
    cases j <;> cases k <;> first | rfl | exact absurd same (by decide)

/-- The router `true` closes the session and opens it again: its OPEN finds the other end ACTIVE. -/
theorem reopened_unknown : ¬ ∀ (owner : NetAddr → Option Bool) (n₀ n : Network Bool) (i j : Bool)
    (a b : NetAddr), FreshPair owner n₀ i j a b → Identified n₀ →
    Reach (netStep owner) (Unwrapped owner i j a b) n₀ n → (side n i b).state = .established →
    (side n i b).routerId = (n.router j).rid := by
  intro always
  have ran : okAnd ([.act false (.openSession 2), .act true (.openSession 1), .deliver true 1,
      .deliver false 2, .act true (.closeSession 1), .deliver true 1, .act true (.openSession 1),
      .deliver true 1].foldlM (netStep twoOwners) twoRouters) (fun n =>
        decide ((side n false 2).state = .established) &&
          decide ((side n false 2).routerId ≠ (n.router true).rid)) = true := by
    decide +kernel
  obtain ⟨n, ran, observed⟩ := okAnd_iff.mp ran
  simp only [Bool.and_eq_true, decide_eq_true_eq] at observed
  have reached : Reach (netStep twoOwners) (Unwrapped twoOwners false true 1 2) twoRouters n :=
    reach_of_run (by decide) (by decide +kernel) ran
  exact observed.2 (always _ _ n _ _ _ _ twoRouters_fresh twoRouters_identified reached observed.1)

/-- Both routers open the session, and each takes the OPEN of the other while it waits. -/
theorem introduced_two : ∃ n, (side n false 2).state = .established ∧
    (side n false 2).routerId = (n.router true).rid := by
  have ran : okAnd ([.act false (.openSession 2), .act true (.openSession 1), .deliver true 1,
      .deliver false 2].foldlM (netStep twoOwners) twoRouters) (fun n =>
        decide ((side n false 2).state = .established)) = true := by
    decide +kernel
  obtain ⟨n, ran, observed⟩ := okAnd_iff.mp ran
  have up := of_decide_eq_true observed
  have passive : ∀ entry ∈ loopStates (netStep twoOwners) twoRouters
      [.act false (.openSession 2), .act true (.openSession 1), .deliver true 1, .deliver false 2],
      NoPassiveOpen false true 1 2 entry.1 entry.2 := by
    decide +kernel
  have reached : Reach (netStep twoOwners) (fun n op => Introduced twoOwners false true 1 2 n op ∧
      Introduced twoOwners false true 1 2 n op) twoRouters n := by
    refine Reach.of_foldlM (fun entry member => ?_) ran
    have allowed : Introduced twoOwners false true 1 2 entry.1 entry.2 :=
      ⟨unwrapped_of_run (by decide) (by decide +kernel) entry member, passive entry member⟩
    exact ⟨allowed, allowed⟩
  exact ⟨n, up, (established_knows twoRouters_fresh twoRouters_fresh twoRouters_identified reached).1 up⟩

end Cbgp.Verified

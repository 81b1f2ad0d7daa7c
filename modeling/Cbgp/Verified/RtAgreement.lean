import Cbgp.Verified.BestFlag

/-! # Routing table and Loc-RIB

The node's routing table has a BGP route towards a prefix exactly when the Loc-RIB has a learned
route for it, with that route's next-hop as its gateway (`RtAgrees`).  The decision process keeps
this, whatever it decides; local networks and clears keep it when they do not touch a learned route
(`KeepsRt`), since they write the Loc-RIB only.
-/

namespace Cbgp.Verified

open Cbgp.Lib Cbgp.Net Cbgp.Bgp

/-! ## The property -/

/-- The routing table agrees with the Loc-RIB for one prefix. -/
structure RtAgreesAt (r : Router) (p : Pfx) : Prop where
  learned : ∀ route, r.locRib.findExact p = some route → route.flags.internal = false →
    ∃ rtinfo entry, bgpRoutesTo r.rt p = [rtinfo] ∧ rtinfo.entries = [entry] ∧
      entry.gateway = route.attr.nextHop
  other : NotLearned r p → bgpRoutesTo r.rt p = []

/-- The routing table agrees with the Loc-RIB. -/
def RtAgrees (r : Router) : Prop := ∀ p, RtAgreesAt r p

/-- A step that writes the Loc-RIB without the routing table does not touch a learned route. -/
def KeepsRt (r : Router) : Op → Prop
  | .addNetwork p => isLocal r p = false → NotLearned r p
  | .delNetwork p => isLocal r p = true → NotLearned r p
  | .clearRib => ∀ p, NotLearned r p
  | .netChange rt _ => ∀ p, bgpRoutesTo rt p = bgpRoutesTo r.rt p
  | _ => True

/-! ## Changes at one prefix -/

section Changes

variable {r r' : Router} {p q : Pfx}

theorem NotLearned.congr (same : r'.locRib.findExact q = r.locRib.findExact p)
    (notLearned : NotLearned r' q) : NotLearned r p := by
  intro route held
  exact notLearned route (same.trans held)

theorem RtAgreesAt.congr (agrees : RtAgreesAt r p)
    (loc : r'.locRib.findExact q = r.locRib.findExact p)
    (rt : bgpRoutesTo r'.rt q = bgpRoutesTo r.rt p) : RtAgreesAt r' q where
  learned route held external := by
    rw [rt]
    exact agrees.learned route (loc.symm.trans held) external
  other notLearned := by
    rw [rt]
    exact agrees.other (notLearned.congr loc)

theorem RtAgreesAt.of_entry {entry : Option Route} {routes : List RtInfo} (loc : LocAt r r' p entry)
    (rt : RtAt r r' p routes)
    (learned : ∀ route, entry = some route → route.flags.internal = false →
      ∃ rtinfo e, routes = [rtinfo] ∧ rtinfo.entries = [e] ∧ e.gateway = route.attr.nextHop)
    (other : (∀ route, entry = some route → route.flags.internal = true) → routes = []) :
    RtAgreesAt r' p := by
  have here : r'.locRib.findExact p = entry := by rw [loc p, if_pos rfl]
  have there : bgpRoutesTo r'.rt p = routes := by rw [rt p, if_pos rfl]
  refine ⟨fun route held external => ?_, fun notLearned => ?_⟩
  · rw [there]
    exact learned route (here.symm.trans held) external
  · rw [there]
    exact other fun route held => notLearned route (here.trans held)

/-- Agreement after a change at one prefix of both tables. -/
theorem RtAgrees.change {entry : Option Route} {routes : List RtInfo} (agrees : RtAgrees r)
    (loc : LocAt r r' p entry) (rt : RtAt r r' p routes) (here : RtAgreesAt r' p) : RtAgrees r' := by
  intro q
  by_cases same : ipPrefixMask q = ipPrefixMask p
  · exact here.congr (r'.locRib.findExact_congr same) (bgpRoutesTo_congr r'.rt same)
  · exact (agrees q).congr (by rw [loc q, if_neg same]) (by rw [rt q, if_neg same])

end Changes

/-! ## Decision processes -/

theorem bgpAttrCmp_nextHop {attr1 attr2 : Attr} (equals : bgpAttrCmp attr1 attr2 = true) :
    attr1.nextHop = attr2.nextHop := by
  simp only [bgpAttrCmp, Bool.and_eq_true, decide_eq_true_eq] at equals
  obtain ⟨⟨⟨⟨⟨⟨⟨⟨nextHop, _⟩, _⟩, _⟩, _⟩, _⟩, _⟩, _⟩, _⟩ := equals
  exact nextHop

structure RtInv (r : Router) : Prop where
  owned : Owned r
  agrees : RtAgrees r

/-- A decision process keeps the agreement. -/
theorem RtInv.outcome {r r' : Router} {p : Pfx} (inv : RtInv r) (outcome : Outcome r r' p) :
    RtInv r' := by
  refine ⟨inv.owned.outcome outcome, ?_⟩
  cases outcome with
  | shadowed _ _ _ same => exact same ▸ inv.agrees
  | ran g flagged keeps learned left compared installed =>
    cases installed with
    | nothing absent loc rt => exact fun q => (inv.agrees q).congr (by rw [loc]) (by rw [rt])
    | lost old held loc rt =>
      refine inv.agrees.change loc rt (RtAgreesAt.of_entry loc rt ?_ fun _ => rfl)
      intro route absent
      cases absent
    | unchanged w old route dpIgp held won equals loc rt =>
      refine inv.agrees.change loc rt (RtAgreesAt.of_entry loc rt ?_ fun local_ => ?_)
      · intro kept same _
        cases same
        exact ⟨_, _, rfl, rfl, (bgpAttrCmp_nextHop equals).symm⟩
      · have internal := local_ _ rfl
        rw [Route.setFlags_flags, learned old held] at internal
        cases internal
    | updated w route won differs loc rt =>
      refine inv.agrees.change loc rt (RtAgreesAt.of_entry loc rt ?_ fun local_ => ?_)
      · intro installed same _
        cases same
        exact ⟨_, _, rfl, rfl, rfl⟩
      · have internal := local_ _ rfl
        rw [Route.setFlags_flags, (keeps w.addr route.flags).2.1, (inv.owned.adj won).2] at internal
        cases internal

/-- The deletion a decision process asks for finds the route. -/
theorem RtInv.decides {r : Router} (inv : RtInv r) (p : Pfx) :
    Ends RtInv (· ≠ .rtDelRoute) (bgpRouterDecisionProcess r p) := by
  refine (decisionProcess_ends r p).mono (fun _ => inv.outcome) fun e failure => ?_
  cases failure with
  | inl routing => exact routing_ne_rtDelRoute routing
  | inr missing =>
    obtain ⟨_, unknown, old, held, external⟩ := missing
    obtain ⟨rtinfo, _, routes, _⟩ := (inv.agrees p).learned old held external
    simp [bgpRoutesTo, routesTo, unknown] at routes

/-! ## Runs -/

theorem rtInv_rules : DataInvariant RtInv (fun r _ => RtInv r) (fun _ _ => True)
    (· ≠ .rtDelRoute) where
  start inv := inv
  quiet inv quiet :=
    ⟨inv.owned.quiet quiet, fun q => (inv.agrees q).congr (by rw [quiet.locRib]) (by rw [quiet.rt])⟩
  decides inv _ := inv.decides _
  fails differs := differs
  store inv peer _ external := ⟨inv.owned.stored _ peer external, fun q => (inv.agrees q).congr rfl rfl⟩
  drop inv _ := ⟨inv.owned.dropped _ _, fun q => (inv.agrees q).congr rfl rfl⟩
  dropBest inv _ := ⟨inv.owned.dropped _ _, fun q => (inv.agrees q).congr rfl rfl⟩
  retire inv := ⟨inv.owned.retired _ _, fun q => (inv.agrees q).congr rfl rfl⟩
  dropRetired inv _ := ⟨inv.owned.dropped _ _, fun q => (inv.agrees q).congr rfl rfl⟩

/-- Putting an entry that is not learned in the place of one that is not learned. -/
theorem RtAgrees.local_change {r r' : Router} {p : Pfx} (entry : Option Route) (agrees : RtAgrees r)
    (notLearned : NotLearned r p) (loc : LocAt r r' p entry) (rt : r'.rt = r.rt)
    (local_ : ∀ route, entry = some route → route.flags.internal = true) : RtAgrees r' := by
  have routes : RtAt r r' p [] := by
    intro q
    rw [rt]
    split
    next same => rw [bgpRoutesTo_congr r.rt same, (agrees p).other notLearned]
    · rfl
  refine agrees.change loc routes (RtAgreesAt.of_entry loc routes ?_ fun _ => rfl)
  intro route held external
  rw [local_ route held] at external
  cases external

theorem rtInv_exec {r : Router} {op : Op} (inv : RtInv r) (allowed : KeepsRt r op) :
    Ends RtInv (· ≠ .rtDelRoute) (exec r op) := by
  refine rtInv_rules.exec inv (fun _ _ => trivial) ?_ ?_ ?_ ?_
  · rintro p rfl
    refine rtInv_rules.addNetwork inv fun fresh => ⟨inv.owned.originated p, ?_⟩
    refine inv.agrees.local_change (some (localRoute r p)) (allowed fresh) (fun q => ?_) rfl ?_
    · exact Rib.findExact_addRoute _ _ q
    · intro route same
      cases same
      rfl
  · rintro p rfl
    refine rtInv_rules.delNetwork inv fun held => ⟨inv.owned.unoriginated p, ?_⟩
    refine inv.agrees.local_change none (allowed held) (fun q => ?_) rfl ?_
    · exact Rib.findExact_removeRoute _ _ q
    · intro route same
      cases same
  · rintro rfl
    exact ⟨Owned.cleared, fun q => ⟨fun route held => by simp [bgpRouterClearRib] at held,
      fun _ => (inv.agrees q).other (allowed q)⟩⟩
  · rintro rt env rfl
    exact ⟨⟨inv.owned.adj, inv.owned.loc⟩, fun q => (inv.agrees q).congr rfl (allowed q)⟩

/-- From a router without routes, on a node without BGP routes, every run whose steps meet `KeepsRt`
stays in states where routing table and Loc-RIB agree, and no step fails in the assertion of
`bgp_router_rt_del_route`. -/
theorem rtAgrees_of_reach {r₀ r : Router} (fresh : Fresh r₀) (clean : ∀ p, bgpRoutesTo r₀.rt p = [])
    (reached : Reach exec KeepsRt r₀ r) :
    RtAgrees r ∧ ∀ op, KeepsRt r op → exec r op ≠ .error .rtDelRoute := by
  have initially : RtInv r₀ :=
    ⟨fresh.owned, fun p => ⟨fun route held => by simp [fresh.loc] at held, fun _ => clean p⟩⟩
  have inv : RtInv r := reached.invariant initially fun kept allowed stepped =>
    (rtInv_exec kept allowed).value stepped
  exact ⟨inv.agrees, fun op allowed failed => (rtInv_exec inv allowed).error failed rfl⟩

theorem bgpRoutesTo_defaultRt (p : Pfx) : bgpRoutesTo defaultRt p = [] := by
  unfold bgpRoutesTo routesTo defaultRt
  by_cases same : ipPrefixMask p = ⟨0, 0, by decide⟩
  · rw [same, AList.lookup_insert]
    rfl
  · rw [AList.lookup_insert_ne same]
    rfl

/-- A learned route is withdrawn while a local network is added and deleted elsewhere. -/
def learnedAndLocal : List Op :=
  [updateFrom 3 [7] oneHop_short, .addNetwork ⟨0x14000000, 8, short8⟩, updateFrom 2 [7, 8] twoHops_short,
    .handleMessage 3 ⟨0, .withdraw tenNet⟩, .delNetwork ⟨0x14000000, 8, short8⟩]

theorem rtAgrees_of_reach_withdraw : ∃ r, Reach exec KeepsRt twoPeers r ∧
    (r.locRib.findExact tenNet).isSome = true ∧ RtAgrees r ∧
    ∀ op, KeepsRt r op → exec r op ≠ .error .rtDelRoute := by
  have ran : okAnd (learnedAndLocal.foldlM exec twoPeers)
      (fun r => (r.locRib.findExact tenNet).isSome) = true := by
    decide +kernel
  have tested : ((loopStates exec twoPeers learnedAndLocal).all fun entry =>
      (entry.1.locRib.findExact ⟨0x14000000, 8, by decide⟩).all (·.flags.internal)) = true := by
    decide +kernel
  obtain ⟨r, ran, held⟩ := okAnd_iff.mp ran
  have reached : Reach exec KeepsRt twoPeers r := by
    refine Reach.of_foldlM (fun entry member => ?_) ran
    have notLearned : NotLearned entry.1 ⟨0x14000000, 8, by decide⟩ := by
      intro route stored
      simpa [stored] using List.all_eq_true.mp tested entry member
    have listed := loopStates_snd member
    simp only [learnedAndLocal, List.mem_cons, List.not_mem_nil, or_false] at listed
    obtain same | same | same | same | same := listed <;> rw [same]
    · trivial
    · exact fun _ => notLearned
    · trivial
    · trivial
    · exact fun _ => notLearned
  exact ⟨r, reached, held, rtAgrees_of_reach twoPeers_fresh bgpRoutesTo_defaultRt reached⟩

/-- A network added over a learned route leaves the BGP route in the routing table. -/
theorem rtAgrees_add_network : ¬ ∀ r₀ r : Router, Fresh r₀ → (∀ p, bgpRoutesTo r₀.rt p = []) →
    Reach exec (fun _ op => ∀ rt env, op ≠ .netChange rt env) r₀ r → RtAgrees r := by
  intro always
  have ran : okAnd ([updateFrom 3 [7] (by decide), .addNetwork tenNet].foldlM exec twoPeers)
      (fun r => (r.locRib.findExact tenNet).all (·.flags.internal) &&
        !(bgpRoutesTo r.rt tenNet).isEmpty) = true := by
    decide +kernel
  obtain ⟨r, ran, observed⟩ := okAnd_iff.mp ran
  rw [Bool.and_eq_true] at observed
  have agrees := always twoPeers r twoPeers_fresh bgpRoutesTo_defaultRt
    (Reach.of_foldlM (fun entry member => ?_) ran) tenNet
  · have none_left := agrees.other fun route held => by simpa [held] using observed.1
    rw [none_left] at observed
    cases observed.2
  · have listed := loopStates_snd member
    simp only [List.mem_cons, List.not_mem_nil, or_false] at listed
    obtain same | same := listed <;> rw [same] <;> intro _ _ other <;> cases other

end Cbgp.Verified

import Cbgp.Verified.Ownership

/-! # The flag of the best route

`ROUTE_FLAG_BEST` marks, in the Adj-RIB-Ins, the route the Loc-RIB holds (`BestFlags`).  This is an
invariant of the runs in which an unchanged best route always comes from the peer the Loc-RIB names
(`KeepsAnnouncer`) and no network is added over a learned route.
-/

namespace Cbgp.Verified

open Cbgp.Lib Cbgp.Net Cbgp.Bgp

/-! ## The property -/

/-- The flags agree with the Loc-RIB for one prefix. -/
structure BestFlagsAt (r : Router) (p : Pfx) : Prop where
  learned : ∀ route a, r.locRib.findExact p = some route → route.peer = some a →
    (∃ adj, r.adjRoute a p = some adj ∧ adj.flags.best = true ∧ Attr.Same adj.attr route.attr) ∧
      ∀ b, b ≠ a → bestAt r b p = false
  absent : r.locRib.findExact p = none → ∀ a, bestAt r a p = false
  internal : ∀ route, r.locRib.findExact p = some route → route.flags.internal = true →
    ∀ a, bestAt r a p = false

/-- The flags agree with the Loc-RIB. -/
def BestFlags (r : Router) : Prop := ∀ p, BestFlagsAt r p

/-! ## The condition -/

/-- If the decision process is going to keep the Loc-RIB route, then that route has the winner's
attributes and names the winner's peer. -/
def KeepsAnnouncer (r : Router) (p : Pfx) : Prop :=
  ∀ old w route, r.locRib.findExact p = some old → old.flags.internal = false →
    compareRoutes r (bgpRouterGetFeasibleRoutes r p) = .ok [w] →
    r.adjRoute w.addr p = some route → bgpAttrCmp old.attr route.attr = true →
    old.peer = some w.addr ∧ Attr.Same route.attr old.attr

/-- The Loc-RIB has no learned route for the prefix. -/
def NotLearned (r : Router) (p : Pfx) : Prop :=
  ∀ route, r.locRib.findExact p = some route → route.flags.internal = true

/-- The steps of the runs: a network that is added does not shadow a learned route. -/
def KeepsBest (r : Router) (op : Op) : Prop :=
  (∀ run ∈ dpRuns r op, KeepsAnnouncer run.1 run.2) ∧
    match op with
    | .addNetwork p => isLocal r p = false → NotLearned r p
    | .clearRib => False
    | _ => True

/-! ## The invariant -/

/-- The Loc-RIB route is marked in the Adj-RIB-In of its peer, where it is eligible. -/
def Marked (r : Router) (p : Pfx) : Prop :=
  ∀ route a, r.locRib.findExact p = some route → route.peer = some a →
    ∃ adj, r.adjRoute a p = some adj ∧ adj.flags.best = true ∧ adj.flags.eligible = true ∧
      Attr.Same adj.attr route.attr

/-- Only the route of the peer the Loc-RIB names is marked. -/
def OnlyMarked (r : Router) (p : Pfx) : Prop :=
  ∀ a, bestAt r a p = true → ∃ route, r.locRib.findExact p = some route ∧ route.peer = some a

/-- The local networks are in the Loc-RIB, and no two have the same prefix. -/
structure NetsHeld (r : Router) : Prop where
  held : ∀ net ∈ r.localNets, ∃ route, r.locRib.findExact net.pfx = some route ∧
    route.flags.internal = true
  distinct : r.localNets.Pairwise fun n m => ipPrefixMask n.pfx ≠ ipPrefixMask m.pfx

/-- What a decision process for `p` needs: the flags may still mark a route that is gone. -/
structure BestPre (r : Router) (p : Pfx) : Prop where
  owned : Owned r
  nets : NetsHeld r
  marked : ∀ q, ipPrefixMask q ≠ ipPrefixMask p → Marked r q
  only : ∀ q, OnlyMarked r q

structure BestInv (r : Router) : Prop where
  owned : Owned r
  nets : NetsHeld r
  marked : ∀ q, Marked r q
  only : ∀ q, OnlyMarked r q

theorem BestInv.bestFlags {r : Router} (inv : BestInv r) : BestFlags r := by
  intro p
  refine ⟨fun route a held peer => ⟨?_, fun b other => ?_⟩, fun absent a => ?_,
    fun route held internal a => ?_⟩
  · obtain ⟨adj, stored, best, -, same⟩ := inv.marked p route a held peer
    exact ⟨adj, stored, best, same⟩
  · by_contra best
    obtain ⟨route', held', peer'⟩ := inv.only p b (by simpa using best)
    rw [held] at held'
    cases held'
    rw [peer] at peer'
    exact other (Option.some.inj peer').symm
  · by_contra best
    obtain ⟨route, held, _⟩ := inv.only p a (by simpa using best)
    rw [absent] at held
    cases held
  · by_contra best
    obtain ⟨route', held', peer⟩ := inv.only p a (by simpa using best)
    rw [held] at held'
    cases held'
    rw [inv.owned.learned held peer] at internal
    cases internal

/-! ## The invariant under changes of the RIBs -/

section Congr

variable {r r' : Router} {q : Pfx}

theorem Marked.congr (marked : Marked r q) (adj : ∀ a, r'.adjRoute a q = r.adjRoute a q)
    (loc : r'.locRib.findExact q = r.locRib.findExact q) : Marked r' q := by
  intro route a held peer
  rw [loc] at held
  rw [adj]
  exact marked route a held peer

theorem OnlyMarked.congr (only : OnlyMarked r q) (adj : ∀ a, bestAt r' a q = true → bestAt r a q = true)
    (loc : r'.locRib.findExact q = r.locRib.findExact q) : OnlyMarked r' q := by
  intro a best
  rw [loc]
  exact only a (adj a best)

theorem Marked.same_key {p : Pfx} (marked : Marked r p) (same : ipPrefixMask q = ipPrefixMask p) :
    Marked r q := by
  intro route a held peer
  rw [r.locRib.findExact_congr same] at held
  rw [adjRoute_congr r a same]
  exact marked route a held peer

theorem OnlyMarked.same_key {p : Pfx} (only : OnlyMarked r p) (same : ipPrefixMask q = ipPrefixMask p) :
    OnlyMarked r q := by
  intro a best
  rw [r.locRib.findExact_congr same]
  rw [bestAt, adjRoute_congr r a same] at best
  exact only a best

theorem NetsHeld.congr (nets : NetsHeld r) (same : r'.localNets = r.localNets)
    (loc : ∀ p route, r.locRib.findExact p = some route → route.flags.internal = true →
      ∃ route', r'.locRib.findExact p = some route' ∧ route'.flags.internal = true) :
    NetsHeld r' where
  held net member := by
    obtain ⟨route, held, internal⟩ := nets.held net (same ▸ member)
    exact loc net.pfx route held internal
  distinct := same ▸ nets.distinct

end Congr

/-! ## Decision processes -/

theorem NetsHeld.outcome {r r' : Router} {p : Pfx} (nets : NetsHeld r) (outcome : Outcome r r' p) :
    NetsHeld r' := by
  cases outcome with
  | shadowed _ _ _ same => exact same ▸ nets
  | ran g flagged keeps learned left compared installed =>
    -- a local route would have shadowed the decision process
    have elsewhere {entry : Option Route} (loc : LocAt r r' p entry) {q : Pfx} {route : Route}
        (held : r.locRib.findExact q = some route) (internal : route.flags.internal = true) :
        ∃ route', r'.locRib.findExact q = some route' ∧ route'.flags.internal = true := by
      by_cases same : ipPrefixMask q = ipPrefixMask p
      · rw [r.locRib.findExact_congr same] at held
        rw [learned route held] at internal
        cases internal
      · exact ⟨route, by rw [loc q, if_neg same, held], internal⟩
    refine nets.congr flagged.localNets fun q route held internal => ?_
    cases installed with
    | nothing _ loc => exact ⟨route, loc ▸ held, internal⟩
    | lost _ _ loc => exact elsewhere loc held internal
    | unchanged _ _ _ _ _ _ _ loc => exact elsewhere loc held internal
    | updated _ _ _ _ loc => exact elsewhere loc held internal

section Decides

variable {r r' : Router} {p : Pfx} {g : NetAddr → RouteFlags → RouteFlags}

/-- Where nothing is installed, no mark is left. -/
theorem BestPre.unmarked (pre : BestPre r p) (flagged : Flagged r r' p g)
    (best : ∀ a f, (g a f).best = true → f.best = true ∧
      ∀ old, r.locRib.findExact p = some old → old.peer ≠ some a) (a : NetAddr) :
    bestAt r' a p = false := by
  by_contra marked
  obtain ⟨route, held, on⟩ := flagged.best rfl (by simpa using marked)
  obtain ⟨before, notOld⟩ := best a route.flags on
  obtain ⟨old, heldOld, peer⟩ := pre.only p a (bestAt_of_flag held before)
  exact notOld old heldOld peer

/-- The winner is marked, and eligible as every candidate. -/
theorem winner_marked (flagged : Flagged r r' p g) (keeps : KeepsFlags g) {w : Cand} {route : Route}
    (compared : compareRoutes r (bgpRouterGetFeasibleRoutes r p) = .ok [w])
    (won : r.adjRoute w.addr p = some route) (best : ∀ f, (g w.addr f).best = true) :
    ∃ adj, r'.adjRoute w.addr p = some adj ∧ adj.flags.best = true ∧ adj.flags.eligible = true ∧
      adj.attr = route.attr := by
  have member : w ∈ bgpRouterGetFeasibleRoutes r p :=
    ((compareRoutes_ends r _).value compared).1 List.mem_cons_self
  obtain ⟨_, route', _, _, won', eligible, _, _⟩ := mem_candidates.mp member
  rw [won] at won'
  cases won'
  refine ⟨route.setFlags (g w.addr), ?_, best _, ?_, rfl⟩
  · rw [flagged.adj, if_pos rfl, won]
    rfl
  · exact (keeps w.addr route.flags).1.trans eligible

/-- The flags for the prefix of the decision process. -/
theorem BestPre.installed {left : List Cand} (pre : BestPre r p) (allowed : KeepsAnnouncer r p)
    (flagged : Flagged r r' p g) (keeps : KeepsFlags g)
    (learned : ∀ old, r.locRib.findExact p = some old → old.flags.internal = false)
    (compared : compareRoutes r (bgpRouterGetFeasibleRoutes r p) = .ok left)
    (installed : Installed r r' p g left) :
    ∃ entry, LocAt r r' p entry ∧ Marked r' p ∧ OnlyMarked r' p := by
  cases installed with
  -- Without a route in the Loc-RIB afterwards, nothing may stay marked.
  | nothing absent loc _ best =>
    have here : LocAt r r' p none := by
      intro q
      rw [loc]
      split
      next same => rw [r.locRib.findExact_congr same, absent]
      · rfl
    refine ⟨none, here, fun route a held => ?_, fun a marked => ?_⟩
    · rw [here p, if_pos rfl] at held
      cases held
    · rw [pre.unmarked flagged ?_ a] at marked
      · cases marked
      · intro a f on
        rw [best, Bool.and_eq_true] at on
        exact ⟨on.1, fun old held => by simp [absent] at held⟩
  | lost old held loc _ best =>
    refine ⟨none, loc, fun route a held => ?_, fun a marked => ?_⟩
    · rw [loc p, if_pos rfl] at held
      cases held
    · rw [pre.unmarked flagged ?_ a] at marked
      · cases marked
      · intro a f on
        simp only [best, Bool.and_eq_true, Bool.not_eq_true', decide_eq_false_iff_not] at on
        refine ⟨on.1.1, fun old' held' => ?_⟩
        rw [held] at held'
        cases held'
        exact on.2
  -- The old entry stays although its announcer may have changed: this is where allowed is needed.
  | unchanged w old route dpIgp held won equals loc _ best =>
    obtain ⟨announcer, same⟩ := allowed old w route held (learned old held) compared won equals
    refine ⟨_, loc, fun route' a held' peer => ?_, fun a marked => ?_⟩
    · rw [loc p, if_pos rfl] at held'
      cases held'
      obtain rfl : w.addr = a := Option.some.inj (announcer.symm.trans peer)
      obtain ⟨adj, stored, on, eligible, attr⟩ :=
        winner_marked flagged keeps compared won (fun f => by simp [best])
      exact ⟨adj, stored, on, eligible, attr ▸ same⟩
    · rw [loc p, if_pos rfl]
      refine ⟨_, rfl, ?_⟩
      obtain ⟨adj, stored, on⟩ := flagged.best rfl marked
      rw [best, Bool.or_eq_true, decide_eq_true_eq, Bool.and_eq_true] at on
      cases on with
      | inl isWinner => exact isWinner ▸ announcer
      | inr before =>
        obtain ⟨old', held', peer⟩ := pre.only p a (bestAt_of_flag stored before.1)
        rw [held] at held'
        cases held'
        exact peer
  -- A new entry carries its announcer, and the flag of the old one was taken off first.
  | updated w route won differs loc _ best =>
    refine ⟨_, loc, fun route' a held' peer => ?_, fun a marked => ?_⟩
    · rw [loc p, if_pos rfl] at held'
      cases held'
      obtain rfl : w.addr = a := Option.some.inj ((pre.owned.adj won).1.symm.trans peer)
      obtain ⟨adj, stored, on, eligible, attr⟩ :=
        winner_marked flagged keeps compared won (fun f => by simp [best])
      exact ⟨adj, stored, on, eligible, attr ▸ Attr.same_refl adj.attr⟩
    · rw [loc p, if_pos rfl]
      refine ⟨_, rfl, ?_⟩
      obtain ⟨adj, stored, on⟩ := flagged.best rfl marked
      simp only [best, Bool.or_eq_true, decide_eq_true_eq, Bool.and_eq_true, Bool.not_eq_true',
        decide_eq_false_iff_not] at on
      cases on with
      | inl isWinner => exact isWinner ▸ (pre.owned.adj won).1
      | inr before =>
        obtain ⟨old, heldOld, peer⟩ := pre.only p a (bestAt_of_flag stored before.1.1)
        exact absurd (by rw [heldOld]; exact peer) before.2

/-- A decision process establishes the invariant. -/
theorem BestPre.outcome (pre : BestPre r p) (allowed : KeepsAnnouncer r p)
    (outcome : Outcome r r' p) : BestInv r' := by
  have owned := pre.owned.outcome outcome
  have nets := pre.nets.outcome outcome
  cases outcome with
  | shadowed old held internal same =>
    subst same
    refine ⟨pre.owned, pre.nets, fun q => ?_, pre.only⟩
    by_cases here : ipPrefixMask q = ipPrefixMask p
    · intro route a held' peer
      rw [r'.locRib.findExact_congr here, held] at held'
      cases held'
      rw [pre.owned.learned held peer] at internal
      cases internal
    · exact pre.marked q here
  | ran g flagged keeps learned left compared installed =>
    obtain ⟨entry, loc, marked, only⟩ :=
      pre.installed allowed flagged keeps learned compared installed
    have sameLoc {q : Pfx} (other : ipPrefixMask q ≠ ipPrefixMask p) :
        r'.locRib.findExact q = r.locRib.findExact q := by
      rw [loc q, if_neg other]
    refine ⟨owned, nets, fun q => ?_, fun q => ?_⟩
    · by_cases here : ipPrefixMask q = ipPrefixMask p
      · exact marked.same_key here
      · exact (pre.marked q here).congr (fun a => flagged.adj_ne a here) (sameLoc here)
    · by_cases here : ipPrefixMask q = ipPrefixMask p
      · exact only.same_key here
      · refine (pre.only q).congr (fun a on => ?_) (sameLoc here)
        exact bestAt_congr (flagged.adj_ne a here) ▸ on

end Decides

/-! ## Received routes -/

section Data

variable {r : Router} {addr : NetAddr} {p : Pfx}

theorem dropped_bestAt {a : NetAddr} {q : Pfx} (on : bestAt (dropped r addr p) a q = true) :
    bestAt r a q = true := by
  rw [bestAt, dropped_adjRoute] at on
  split at on
  · cases on
  · exact on

theorem BestInv.stored {route : Route} {attr : Attr} (inv : BestInv r)
    (peer : route.peer = some addr) (off : route.flags.best = false)
    (external : route.flags.internal = false) :
    BestPre (stored r addr route attr) route.pfx where
  owned := inv.owned.stored attr peer external
  nets := inv.nets.congr rfl fun _ route held internal => ⟨route, held, internal⟩
  marked q other := by
    refine (inv.marked q).congr (fun a => ?_) rfl
    rw [stored_adjRoute, if_neg fun here => other here.2]
  only q := by
    refine (inv.only q).congr (fun a on => ?_) rfl
    rw [bestAt, stored_adjRoute] at on
    split at on
    · -- the new route carries no mark
      cases known : r.peers.lookup addr with
      | none => simp [known] at on
      | some peer => simp [known, acceptedRoute, off] at on
    · exact on

theorem BestInv.dropped_pre (inv : BestInv r) : BestPre (dropped r addr p) p where
  owned := inv.owned.dropped addr p
  nets := inv.nets.congr rfl fun _ route held internal => ⟨route, held, internal⟩
  marked q other := by
    refine (inv.marked q).congr (fun a => ?_) rfl
    rw [dropped_adjRoute, if_neg fun here => other here.2]
  only q := (inv.only q).congr (fun _ => dropped_bestAt) rfl

/-- A route that is not marked can go without a decision process. -/
theorem BestInv.dropped (inv : BestInv r) (off : bestAt r addr p = false) :
    BestInv (dropped r addr p) where
  owned := inv.owned.dropped addr p
  nets := inv.nets.congr rfl fun _ route held internal => ⟨route, held, internal⟩
  marked q := by
    intro route a held peer
    obtain ⟨adj, stored, best, eligible, same⟩ := inv.marked q route a held peer
    refine ⟨adj, ?_, best, eligible, same⟩
    rw [dropped_adjRoute, if_neg, stored]
    rintro ⟨rfl, here⟩
    rw [adjRoute_congr r a here] at stored
    rw [bestAt_of_flag stored best] at off
    cases off
  only q := (inv.only q).congr (fun _ => dropped_bestAt) rfl

theorem BestInv.retired (inv : BestInv r) : BestPre (retired r addr p) p where
  owned := inv.owned.retired addr p
  nets := inv.nets.congr rfl fun _ route held internal => ⟨route, held, internal⟩
  marked q other := by
    refine (inv.marked q).congr (fun a => ?_) rfl
    rw [Verified.retired, setAdjFlags_adjRoute, if_neg fun here => other here.2]
  only q := by
    refine (inv.only q).congr (fun a on => ?_) rfl
    rw [bestAt, Verified.retired, setAdjFlags_adjRoute] at on
    split at on
    · cases held : r.adjRoute a q with
      | none => simp [held] at on
      | some route => exact bestAt_of_flag held (by simpa [held] using on)
    · exact on

/-- A route that is not eligible is not marked. -/
theorem BestInv.unmarked_of_ineligible (inv : BestInv r)
    (ineligible : ∀ route, r.adjRoute addr p = some route → route.flags.eligible = false) :
    bestAt r addr p = false := by
  by_contra on
  obtain ⟨route, held, peer⟩ := inv.only p addr (by simpa using on)
  obtain ⟨adj, stored, _, eligible, _⟩ := inv.marked p route addr held peer
  rw [ineligible adj stored] at eligible
  cases eligible

theorem bestInv_rules : DataInvariant BestInv BestPre KeepsAnnouncer fun _ => True where
  start inv := ⟨inv.owned, inv.nets, fun q _ => inv.marked q, inv.only⟩
  quiet inv quiet := by
    refine ⟨inv.owned.quiet quiet, ?_, fun q => ?_, fun q => ?_⟩
    · exact inv.nets.congr quiet.localNets fun _ route held internal =>
        ⟨route, quiet.locRib ▸ held, internal⟩
    · exact (inv.marked q).congr (fun a => quiet.adjRoute a q) (by rw [quiet.locRib])
    · refine (inv.only q).congr (fun a on => ?_) (by rw [quiet.locRib])
      exact bestAt_congr (quiet.adjRoute a q) ▸ on
  decides pre allowed :=
    (decisionProcess_ends _ _).mono (fun _ => pre.outcome allowed) fun _ _ => trivial
  fails _ := trivial
  store inv peer off external := inv.stored peer off external
  drop inv off := inv.dropped off
  dropBest inv _ := inv.dropped_pre
  retire inv := inv.retired
  dropRetired inv ineligible := inv.dropped (inv.unmarked_of_ineligible ineligible)

end Data

/-! ## Local networks -/

theorem BestInv.originated {r : Router} {p : Pfx} (inv : BestInv r) (fresh : isLocal r p = false)
    (shadows : NotLearned r p) : BestInv (originated r p) where
  owned := inv.owned.originated p
  nets := by
    have here : ∀ q, ipPrefixMask q = ipPrefixMask p → ∃ route,
        (Verified.originated r p).locRib.findExact q = some route ∧ route.flags.internal = true := by
      intro q same
      refine ⟨localRoute r p, ?_, rfl⟩
      rw [Verified.originated, Rib.findExact_addRoute, if_pos (by exact same)]
    refine ⟨fun net member => ?_, ?_⟩
    · by_cases same : ipPrefixMask net.pfx = ipPrefixMask p
      · exact here net.pfx same
      · rw [Verified.originated, List.mem_append, List.mem_singleton] at member
        cases member with
        | inl old =>
          obtain ⟨route, held, internal⟩ := inv.nets.held net old
          refine ⟨route, ?_, internal⟩
          rw [Verified.originated, Rib.findExact_addRoute, if_neg (by exact same), held]
        | inr new => exact absurd (by rw [new]; rfl) same
    · refine List.pairwise_append.mpr ⟨inv.nets.distinct, List.pairwise_singleton _ _, ?_⟩
      intro net member net' member'
      rw [List.mem_singleton.mp member']
      intro same
      have isOld : isLocal r p = true := isLocal_iff.mpr ⟨net, member, same⟩
      rw [isOld] at fresh
      cases fresh
  marked q := by
    intro route a held peer
    rw [Verified.originated, Rib.findExact_addRoute] at held
    split at held
    · cases held
      cases peer
    · exact inv.marked q route a held peer
  only q := by
    intro a on
    obtain ⟨route, held, peer⟩ := inv.only q a on
    refine ⟨route, ?_, peer⟩
    rw [Verified.originated, Rib.findExact_addRoute, if_neg, held]
    intro same
    -- a marked route is learned, so that the network is not added over it
    have learned := inv.owned.learned held peer
    rw [shadows route (by rw [← held]; exact (r.locRib.findExact_congr same).symm)] at learned
    cases learned

/-- The only local network with a prefix is the one that is erased. -/
theorem NetsHeld.erased {r : Router} {p : Pfx} {net : Route} (nets : NetsHeld r)
    (held : isLocal r p = true) (member : net ∈ (unoriginated r p).localNets) :
    ipPrefixMask net.pfx ≠ ipPrefixMask p := by
  obtain ⟨old, memberOld, sameOld⟩ := isLocal_iff.mp held
  obtain ⟨gone, before, after, none_before, isGone, shape, rest⟩ :=
    List.exists_of_eraseP memberOld (p := fun route => ipPrefixEq route.pfx p)
      ((ipPrefixEq_iff _ _).mpr sameOld)
  have distinct := nets.distinct
  rw [shape, List.pairwise_append, List.pairwise_cons] at distinct
  rw [unoriginated, rest, List.mem_append] at member
  cases member with
  | inl early =>
    intro same
    exact none_before net early ((ipPrefixEq_iff _ _).mpr same)
  | inr late =>
    rw [← (ipPrefixEq_iff _ _).mp isGone]
    exact (distinct.2.1.1 net late).symm

theorem BestInv.unoriginated {r : Router} {p : Pfx} (inv : BestInv r) (held : isLocal r p = true) :
    BestInv (unoriginated r p) where
  owned := inv.owned.unoriginated p
  nets := by
    refine ⟨fun net member => ?_, inv.nets.distinct.sublist List.eraseP_sublist⟩
    obtain ⟨route, stored, internal⟩ := inv.nets.held net (List.mem_of_mem_eraseP member)
    refine ⟨route, ?_, internal⟩
    rw [Verified.unoriginated, Rib.findExact_removeRoute, if_neg, stored]
    exact inv.nets.erased held member
  marked q := by
    intro route a stored peer
    rw [Verified.unoriginated, Rib.findExact_removeRoute] at stored
    split at stored
    · cases stored
    · exact inv.marked q route a stored peer
  only q := by
    intro a on
    obtain ⟨route, stored, peer⟩ := inv.only q a on
    refine ⟨route, ?_, peer⟩
    rw [Verified.unoriginated, Rib.findExact_removeRoute, if_neg, stored]
    intro same
    obtain ⟨net, member, sameNet⟩ := isLocal_iff.mp held
    obtain ⟨local_, storedLocal, internal⟩ := inv.nets.held net member
    rw [r.locRib.findExact_congr (sameNet.trans same.symm), stored] at storedLocal
    cases storedLocal
    rw [inv.owned.learned stored peer] at internal
    cases internal

/-! ## Runs -/

theorem bestInv_exec {r : Router} {op : Op} (inv : BestInv r) (allowed : KeepsBest r op) :
    Ends BestInv (fun _ => True) (exec r op) := by
  refine bestInv_rules.exec inv allowed.1 ?_ ?_ ?_ ?_
  · rintro p rfl
    exact bestInv_rules.addNetwork inv fun fresh => inv.originated fresh (allowed.2 fresh)
  · rintro p rfl
    exact bestInv_rules.delNetwork inv inv.unoriginated
  · rintro rfl
    exact allowed.2.elim
  · rintro rt env rfl
    exact ⟨⟨inv.owned.adj, inv.owned.loc⟩, ⟨inv.nets.held, inv.nets.distinct⟩, inv.marked, inv.only⟩

theorem Fresh.bestInv {r : Router} (fresh : Fresh r) : BestInv r where
  owned := fresh.owned
  nets := ⟨fun net member => by simp [fresh.nets] at member, by simp [fresh.nets]⟩
  marked q route a held := by simp [fresh.loc] at held
  only q a on := by simp [bestAt, fresh.adj] at on

/-- From a router without routes, every run whose steps meet `KeepsBest` stays in states where the
flags agree with the Loc-RIB. -/
theorem bestFlags_of_reach {r₀ r : Router} (fresh : Fresh r₀) (reached : Reach exec KeepsBest r₀ r) :
    BestFlags r := by
  have inv : BestInv r := reached.invariant fresh.bestInv fun kept allowed stepped =>
    (bestInv_exec kept allowed).value stepped
  exact inv.bestFlags

/-! ## Where the flags go wrong -/

/-- The steps the flags are meant to survive: received routes, closes, local networks, reruns and
changes of the network around the router. -/
def RouteStep : Op → Prop
  | .handleMessage _ ⟨_, .update _⟩ | .handleMessage _ ⟨_, .withdraw _⟩ => True
  | .closeSession _ | .addNetwork _ | .delNetwork _ | .rerun _ | .netChange _ _ => True
  | _ => False

/-- A virtual peer whose session is up. -/
def virtualPeer (asn : Asn) : Peer :=
  { bgpPeerCreate asn with virtual := true, sessionState := .established }

/-- A router of AS 1 with two virtual peers in AS 7. -/
def twoPeers : Router :=
  bgpRouterAddPeer
    (bgpRouterAddPeer (bgpRouterCreate 1 1 defaultRt Env.default) 3 (virtualPeer 7))
    2 (virtualPeer 7)

/-- 10.0.0.0/8. -/
def tenNet : Pfx := ⟨0x0a000000, 8, short8⟩

/-- A route for 10.0.0.0/8. -/
def tenVia (asns : List Asn) (short : asns.length ≤ maxPathSequenceLength) : Route :=
  { routeCreate tenNet none 9 .igp with
    attr := { bgpAttrCreate 9 .igp 0 0 with path := some [⟨.sequence, asns, short⟩] } }

/-- An UPDATE for 10.0.0.0/8 from a virtual peer. -/
def updateFrom (addr : NetAddr) (asns : List Asn) (short : asns.length ≤ maxPathSequenceLength) : Op :=
  .handleMessage addr ⟨0, .update (tenVia asns short)⟩

theorem twoPeers_fresh : Fresh twoPeers :=
  ((fresh_create _ _ _ _).addPeer 3 rfl).addPeer 2 rfl

/-- The same route from a second peer with a lower address: the second peer wins and its route is
marked, the Loc-RIB keeps the first peer's. -/
theorem bestFlags_other_announcer : ¬ ∀ r₀ r : Router, Fresh r₀ →
    Reach exec (fun _ op => RouteStep op) r₀ r → BestFlags r := by
  intro always
  have ran : okAnd ([updateFrom 3 [7] (by decide), updateFrom 2 [7] (by decide)].foldlM exec twoPeers)
      (fun r => (r.locRib.findExact tenNet).any (·.peer = some 3) && bestAt r 2 tenNet) = true := by
    decide +kernel
  obtain ⟨r, ran, observed⟩ := okAnd_iff.mp ran
  rw [Bool.and_eq_true] at observed
  have flags := always twoPeers r twoPeers_fresh (Reach.of_foldlM (fun entry member => ?_) ran) tenNet
  · cases held : r.locRib.findExact tenNet with
    | none => simp [held] at observed
    | some route =>
      obtain ⟨_, others⟩ := flags.learned route 3 held (by simpa [held] using observed.1)
      rw [others 2 (by decide)] at observed
      cases observed.2
  · have listed := loopStates_snd member
    simp only [List.mem_cons, List.not_mem_nil, or_false] at listed
    obtain same | same := listed
    · rw [same]
      trivial
    · rw [same]
      trivial

/-- A test for `KeepsAnnouncer`. -/
def sameAnnouncer (r : Router) (p : Pfx) : Bool :=
  match r.locRib.findExact p, compareRoutes r (bgpRouterGetFeasibleRoutes r p) with
  | some old, .ok [w] => (r.adjRoute w.addr p).all fun route =>
      !bgpAttrCmp old.attr route.attr || decide (old.peer = some w.addr ∧ route.attr = old.attr)
  | _, _ => true

theorem keepsAnnouncer_of_test {r : Router} {p : Pfx} (passed : sameAnnouncer r p = true) :
    KeepsAnnouncer r p := by
  intro old w route held _ compared won equals
  simp only [sameAnnouncer, held, compared, won, Option.all_some, equals, Bool.not_true,
    Bool.false_or, decide_eq_true_eq] at passed
  exact ⟨passed.1, passed.2 ▸ Attr.same_refl _⟩

theorem oneHop_short : [(7 : Asn)].length ≤ maxPathSequenceLength := by decide

theorem twoHops_short : [(7 : Asn), 8].length ≤ maxPathSequenceLength := by decide

/-- Two peers announce paths of different lengths, and the better one is withdrawn. -/
def betterWithdrawn : List Op :=
  [updateFrom 3 [7] oneHop_short, updateFrom 2 [7, 8] twoHops_short,
    .handleMessage 3 ⟨0, .withdraw tenNet⟩]

theorem bestFlags_of_reach_withdraw :
    ∃ r, Reach exec KeepsBest twoPeers r ∧ bestAt r 2 tenNet = true ∧ BestFlags r := by
  have ran : okAnd (betterWithdrawn.foldlM exec twoPeers) (bestAt · 2 tenNet) = true := by
    decide +kernel
  have tested : ((loopStates exec twoPeers betterWithdrawn).all fun entry =>
      (dpRuns entry.1 entry.2).all fun run => sameAnnouncer run.1 run.2) = true := by
    decide +kernel
  obtain ⟨r, ran, best⟩ := okAnd_iff.mp ran
  have reached : Reach exec KeepsBest twoPeers r := by
    refine Reach.of_foldlM (fun entry member => ⟨fun run ran => ?_, ?_⟩) ran
    · exact keepsAnnouncer_of_test
        (List.all_eq_true.mp (List.all_eq_true.mp tested entry member) run ran)
    · have listed := loopStates_snd member
      simp only [betterWithdrawn, List.mem_cons, List.not_mem_nil, or_false] at listed
      obtain same | same | same := listed <;> rw [same] <;> trivial
  exact ⟨r, reached, best, bestFlags_of_reach twoPeers_fresh reached⟩

end Cbgp.Verified

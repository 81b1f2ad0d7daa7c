import Cbgp.Verified.AsPaths
import Cbgp.Verified.Frame

/-! # Announced routes

What `_bgp_router_advertise_to_peer` does to a Loc-RIB route on its way to a peer.  All of it is as
it should be but for one thing: the result of prepending the local AS is not looked at, so that a
route whose AS-path ends in a full segment is announced with the AS-path it had, and the path is
replaced by the one that the path repository holds for it (`advertised_iff`).
-/

namespace Cbgp.Verified

open Cbgp.Lib Cbgp.Net Cbgp.Bgp

/-! ## AS-paths -/

/-- The AS-path after the redistribution communities that match the peer did their prepending. -/
def redistributedPath (r : Router) (dst : Peer) : List Ecomm → Option Path → Option Path
  | [], path => path
  | comm :: comms, path =>
    if (comm.typeHigh = ecommRed ∧ ecommRedMatch comm dst.asn) ∧
        ((comm.typeLow >>> 3) &&& 0x07).toNat = 0 then
      match pathAppendTimes r.asn (comm.typeLow &&& 0x07).toNat (path.getD []) with
      | none => redistributedPath r dst comms path
      | some grown => redistributedPath r dst comms (some (r.env.intern grown))
    else redistributedPath r dst comms path

/-- Redistribution communities change the AS-path and the communities only. -/
theorem bgpRouterEcommProcess_some {r : Router} {dst : Peer} {comms : List Ecomm} {attr attr' : Attr}
    (processed : bgpRouterEcommProcess r dst comms attr = .ok (some attr')) :
    attr' = { attr with path := redistributedPath r dst comms attr.path, comms := attr'.comms } := by
  induction comms generalizing attr with
  | nil =>
    cases processed
    rfl
  | cons comm comms inductionHypothesis =>
    simp only [bgpRouterEcommProcess, redistributedPath] at processed ⊢
    by_cases isRed : comm.typeHigh = ecommRed ∧ ecommRedMatch comm dst.asn = true
    · simp only [if_pos isRed] at processed
      split at processed
      · rename_i prepends
        -- PREPEND, which may fail as a whole
        have prepended := inductionHypothesis processed
        simp only [isRed, prepends, and_self, if_true, bgpAttrPathPrepend] at prepended ⊢
        cases grown : pathAppendTimes r.asn (comm.typeLow &&& 0x07).toNat (attr.path.getD []) with
        | none => simpa only [grown] using prepended
        | some path => simpa only [grown] using prepended
      · rename_i noExport
        obtain ⟨tagged, added, processed⟩ := except_bind_eq_ok.mp processed
        obtain ⟨list, -, added⟩ := except_bind_eq_ok.mp added
        cases added
        have rest := inductionHypothesis processed
        rw [if_neg (by omega)]
        exact rest
      · cases processed
      · cases processed
    · simp only [if_neg isRed] at processed
      rw [if_neg (fun both => isRed both.1)]
      exact inductionHypothesis processed

/-! ## The steps of an export -/

section Steps

variable {r : Router} {dst : Peer} {route announced : Route}

/-- What the output filter sees after the redistribution matrix. -/
def beforeFilter (r : Router) (dst : Peer) (attr : Attr) : Attr :=
  { attr with
    ecomms := ecommsStripNonTransitive attr.ecomms
    med := if r.asn ≠ dst.asn then 0xffffffff else attr.med }

/-- What is stripped, cleared and updated after the redistribution matrix. -/
def finishExport (r : Router) (src : Option Peer) (dst : Peer) (attr : Attr) : Attr :=
  updateBeforeAnnounce r src dst
    { attr with
      ecomms := ecommsStripNonTransitive attr.ecomms
      med := if r.asn ≠ dst.asn then 0xffffffff else attr.med }

/-- A route that is announced went through the whole matrix and past the output filter. -/
theorem exportRoute_filtered (fit : exportRoute r dst route = .ok (some announced)) :
    ∃ src attr attr' attr'', routePeerGet r route = .ok src ∧
      (∀ peer, src = some peer → dst.routerId ≠ peer.routerId) ∧
      commsContains route.attr.comms commNoAdvertise = false ∧
      redistribute r src dst route = .ok (some attr) ∧
      bgpRouterEcommProcess r dst (attr.ecomms.getD []) attr = .ok (some attr') ∧
      dst.filterOut.apply r.asn r.rt { route with attr := beforeFilter r dst attr' } =
        .ok (some attr'') ∧
      announced = { route with attr := updateBeforeAnnounce r src dst attr'' } := by
  obtain ⟨src, got, fit⟩ := except_bind_eq_ok.mp fit
  split at fit
  · cases fit
  rename_i notBack
  split at fit
  · cases fit
  rename_i mayAdvertise
  obtain ⟨verdict, matrix, fit⟩ := except_bind_eq_ok.mp fit
  cases verdict with
  | none => cases fit
  | some attr =>
    obtain ⟨verdict', processed, fit⟩ := except_bind_eq_ok.mp fit
    cases verdict' with
    | none => cases fit
    | some attr' =>
      obtain ⟨verdict'', filtered, fit⟩ := except_bind_eq_ok.mp fit
      cases verdict'' with
      | none => cases fit
      | some attr'' =>
        simp only [Except.ok.injEq, Option.some.injEq] at fit
        refine ⟨src, attr, attr', attr'', got, ?_, by simpa using mayAdvertise, matrix, processed, ?_,
          fit.symm⟩
        · rintro peer rfl same
          exact notBack (by simp [same])
        · rw [← filtered, beforeFilter]
          by_cases outside : r.asn ≠ dst.asn <;> simp [outside]

/-- A route that is announced past an empty filter went through the whole matrix. -/
theorem exportRoute_some (empty : dst.filterOut = Filter.acceptAll)
    (fit : exportRoute r dst route = .ok (some announced)) :
    ∃ src attr attr', routePeerGet r route = .ok src ∧
      (∀ peer, src = some peer → dst.routerId ≠ peer.routerId) ∧
      commsContains route.attr.comms commNoAdvertise = false ∧
      redistribute r src dst route = .ok (some attr) ∧
      bgpRouterEcommProcess r dst (attr.ecomms.getD []) attr = .ok (some attr') ∧
      announced = { route with attr := finishExport r src dst attr' } := by
  obtain ⟨src, attr, attr', attr'', got, notBack, mayAdvertise, matrix, processed, filtered, rfl⟩ :=
    exportRoute_filtered fit
  refine ⟨src, attr, attr', got, notBack, mayAdvertise, matrix, processed, ?_⟩
  rw [empty] at filtered
  cases filtered
  rfl

theorem redistribute_outside {src : Option Peer} {attr : Attr} (outside : r.asn ≠ dst.asn)
    (matrix : redistribute r src dst route = .ok (some attr)) :
    commsContains route.attr.comms commNoExport = false ∧
      pathContains route.attr.path dst.asn = false ∧
      attr = { route.attr with originator := none, clusterList := none } := by
  simp only [redistribute, if_pos outside] at matrix
  split at matrix
  · cases matrix
  rename_i mayExport
  split at matrix
  · cases matrix
  rename_i loopFree
  cases matrix
  exact ⟨by simpa using mayExport, by simpa using loopFree, rfl⟩

theorem redistribute_reflected {src : Peer} {attr : Attr} (inside : r.asn = dst.asn)
    (fromInside : r.asn = src.asn)
    (matrix : redistribute r (some src) dst route = .ok (some attr)) :
    r.reflector = true ∧ (route.flags.rrClient = true ∨ dst.rrClient = true) ∧
      route.attr.originator ≠ some dst.routerId ∧
      attr = { route.attr with
        originator := some (route.attr.originator.getD src.routerId)
        clusterList := some (route.attr.clusterList.getD [] ++ [r.clusterId]) } := by
  simp only [redistribute, inside, ne_eq, not_true_eq_false, if_false] at matrix
  rw [← inside, fromInside] at matrix
  simp only [not_true_eq_false, if_false] at matrix
  split at matrix
  · cases matrix
  rename_i isReflector
  split at matrix
  · cases matrix
  rename_i notBothPlain
  have client : route.flags.rrClient = true ∨ dst.rrClient = true := by
    by_contra neither
    rw [not_or] at neither
    exact notBothPlain (by simp [neither])
  refine ⟨by simpa using isReflector, client, ?_⟩
  cases originator : route.attr.originator with
  | none =>
    simp only [originator] at matrix
    cases matrix
    exact ⟨by simp, rfl⟩
  | some id =>
    simp only [originator] at matrix
    split at matrix
    · cases matrix
    · rename_i other
      cases matrix
      refine ⟨by simpa using other, ?_⟩
      simp [routeClusterListAppend, originator]

theorem ecommsStripNonTransitive_transitive (comms : Option (List Ecomm)) :
    ∀ comm ∈ (ecommsStripNonTransitive comms).getD [], comm.transitive = true := by
  cases comms with
  | none => simp [ecommsStripNonTransitive]
  | some comms =>
    simp only [ecommsStripNonTransitive]
    split
    · rename_i all
      intro comm member
      exact List.length_filter_eq_length_iff.mp all comm member
    · split
      · simp
      · intro comm member
        exact (List.mem_filter.mp member).2

end Steps

/-! ## Announcements -/

/-- The AS-path to which the local AS is prepended. -/
def exportedPath (r : Router) (dst : Peer) (route : Route) : Path :=
  (redistributedPath r dst (route.attr.ecomms.getD []) route.attr.path).getD []

/-- What an external peer is told. -/
structure ToExternal (r : Router) (dst : Peer) (route announced : Route) : Prop where
  path : announced.attr.path = some (prependAs r.asn (exportedPath r dst route))
  originator : announced.attr.originator = none
  clusterList : announced.attr.clusterList = none
  med : announced.attr.med = 0xffffffff
  nextHop : announced.attr.nextHop = if dst.nextHop ≠ netAddrAny then dst.nextHop else r.rid
  mayExport : commsContains route.attr.comms commNoExport = false
  mayAdvertise : commsContains route.attr.comms commNoAdvertise = false
  loopFree : pathContains route.attr.path dst.asn = false

/-- What an internal peer is told of a route learned over iBGP. -/
structure Reflected (r : Router) (dst : Peer) (route announced : Route) : Prop where
  reflector : r.reflector = true
  client : route.flags.rrClient = true ∨ dst.rrClient = true
  originator : ∃ id, announced.attr.originator = some id ∧ id ≠ dst.routerId
  clusterList : announced.attr.clusterList = some (route.attr.clusterList.getD [] ++ [r.clusterId])

/-- A route as it is to be announced to a peer. -/
structure Advertised (r : Router) (addr : NetAddr) (dst : Peer) (route announced : Route) : Prop where
  toExternal : r.asn ≠ dst.asn → ToExternal r dst route announced
  reflected : ∀ src, routePeerGet r route = .ok (some src) → r.asn = dst.asn → r.asn = src.asn →
    Reflected r dst route announced
  transitive : ∀ comm ∈ announced.attr.ecomms.getD [], comm.transitive = true
  unchanged : (bgpPeerAnnounceRoute r addr announced).locRib = r.locRib

/-- The AS-path takes the local AS, and the repository holds no other path for the result. -/
def PathTakes (r : Router) (dst : Peer) (route : Route) : Prop :=
  lastFull (exportedPath r dst route) = false ∧
    r.env.intern (prependAs r.asn (exportedPath r dst route)) =
      prependAs r.asn (exportedPath r dst route)

section Announcements

variable {r : Router} {dst : Peer} {route announced : Route}

/-- The AS-path of an announcement to an external peer: unchanged when the last segment is full. -/
theorem updateBeforeAnnounce_path {src : Option Peer} {attr : Attr} (outside : r.asn ≠ dst.asn) :
    (updateBeforeAnnounce r src dst attr).path =
      if lastFull (attr.path.getD []) then attr.path
      else some (r.env.intern (prependAs r.asn (attr.path.getD []))) := by
  simp only [updateBeforeAnnounce, if_pos outside, bgpAttrPathPrepend, pathAppendTimes, pathAppend_eq]
  split <;> simp_all

theorem announced_path {src : Option Peer} {attr : Attr} (outside : r.asn ≠ dst.asn) :
    (finishExport r src dst attr).path =
      if lastFull (attr.path.getD []) then attr.path
      else some (r.env.intern (prependAs r.asn (attr.path.getD []))) :=
  updateBeforeAnnounce_path outside

/-- Prepending touches the AS-path only. -/
theorem bgpAttrPathPrepend_path (intern : Path → Path) (attr : Attr) (asn : Asn) (amount : Nat) :
    bgpAttrPathPrepend intern attr asn amount =
      { attr with path := (bgpAttrPathPrepend intern attr asn amount).path } := by
  simp only [bgpAttrPathPrepend]
  split <;> rfl

theorem finishExport_outside (src : Option Peer) (attr : Attr) (outside : r.asn ≠ dst.asn) :
    finishExport r src dst attr =
      { attr with
        path := (finishExport r src dst attr).path
        nextHop := if dst.nextHop ≠ netAddrAny then dst.nextHop else r.rid
        ecomms := ecommsStripNonTransitive attr.ecomms
        med := 0xffffffff } := by
  simp only [finishExport, updateBeforeAnnounce, if_pos outside]
  rw [bgpAttrPathPrepend_path]

theorem finishExport_reflected {src : Peer} (attr : Attr) (inside : r.asn = dst.asn)
    (fromInside : r.asn = src.asn) :
    finishExport r (some src) dst attr = { attr with ecomms := ecommsStripNonTransitive attr.ecomms } := by
  simp [finishExport, updateBeforeAnnounce, inside, ← fromInside]

theorem finishExport_ecomms (src : Option Peer) (attr : Attr) :
    (finishExport r src dst attr).ecomms = ecommsStripNonTransitive attr.ecomms := by
  by_cases outside : r.asn ≠ dst.asn
  · rw [finishExport_outside src attr outside]
  · simp only [finishExport, updateBeforeAnnounce, if_neg outside]
    split
    · rfl
    · split
      · rfl
      · split
        · rfl
        · split <;> rfl

/-- A route announced to a peer past an empty output filter is as it is to be, if and only if the
peer is internal or the AS-path takes the local AS. -/
theorem advertised_iff {addr : NetAddr} (empty : dst.filterOut = Filter.acceptAll)
    (fit : exportRoute r dst route = .ok (some announced)) :
    Advertised r addr dst route announced ↔ (r.asn ≠ dst.asn → PathTakes r dst route) := by
  obtain ⟨src, attr, attr', got, notBack, mayAdvertise, matrix, processed, rfl⟩ :=
    exportRoute_some empty fit
  have red := bgpRouterEcommProcess_some processed
  -- the AS-path, which alone may go wrong
  have path : r.asn ≠ dst.asn → (finishExport r src dst attr').path =
      if lastFull (exportedPath r dst route) then
        redistributedPath r dst (route.attr.ecomms.getD []) route.attr.path
      else some (r.env.intern (prependAs r.asn (exportedPath r dst route))) := by
    intro outside
    obtain ⟨-, -, rfl⟩ := redistribute_outside outside matrix
    rw [announced_path outside, red]
    rfl
  constructor
  · intro advertised outside
    have told := (advertised.toExternal outside).path
    rw [path outside] at told
    split at told
    · rename_i full
      -- a hop is missing
      have same : exportedPath r dst route = prependAs r.asn (exportedPath r dst route) := by
        conv_lhs => rw [exportedPath, told, Option.getD_some]
      have longer := prependAs_lastFull r.asn full
      rw [← same] at longer
      omega
    · rename_i takes
      exact ⟨by simpa using takes, by simpa using told⟩
  · intro takes
    refine ⟨fun outside => ?_, fun peer gotPeer inside fromInside => ?_, ?_, ?_⟩
    · obtain ⟨mayExport, loopFree, isCleared⟩ := redistribute_outside outside matrix
      have finished := finishExport_outside src attr' outside
      refine ⟨?_, ?_, ?_, ?_, ?_, mayExport, mayAdvertise, loopFree⟩
      · rw [path outside, (takes outside).1, (takes outside).2]
        rfl
      all_goals rw [finished]
      · rw [red, isCleared]
      · rw [red, isCleared]
    · rw [got] at gotPeer
      cases gotPeer
      obtain ⟨reflector, client, other, isMarked⟩ := redistribute_reflected inside fromInside matrix
      have finished := finishExport_reflected attr' inside fromInside
      refine ⟨reflector, client, ⟨route.attr.originator.getD peer.routerId, ?_, ?_⟩, ?_⟩
      · simp only [finished]
        rw [red, isMarked]
      · cases originator : route.attr.originator with
        | none => exact (notBack peer rfl).symm
        | some id => simpa [originator] using other
      · simp only [finished]
        rw [red, isMarked]
    · simp only [finishExport_ecomms]
      exact ecommsStripNonTransitive_transitive _
    · exact (bgpPeerSend_sends r addr _).locRib

end Announcements

/-! ## A router between two others -/

section Transit

/-- A neighbour in an AS. -/
def neighbour (asn : Asn) (id : NetAddr) : Peer :=
  { bgpPeerCreate asn with routerId := id, sessionState := .established }

/-- A route from the neighbour in AS 7, whose path has this AS a number of times. -/
def longRoute (hops : Nat) (short : hops ≤ maxPathSequenceLength) : Route :=
  { routeCreate ⟨0x0a000000, 8, short8⟩ (some 2) 9 .igp with
    attr := { bgpAttrCreate 9 .igp 0 0 with
      path := some [⟨.sequence, List.replicate hops 7, by simpa using short⟩] } }

/-- The router of AS 1 between its neighbours in AS 7 and AS 8, with one route. -/
def transit (route : Route) : Router :=
  { bgpRouterAddPeer (bgpRouterAddPeer (bgpRouterCreate 1 1 ∅ Env.default) 2 (neighbour 7 2)) 3
      (neighbour 8 3) with
    locRib := Rib.create.addRoute route }

theorem advertised_one_hop : ∃ announced,
    exportRoute (transit (longRoute 1 (by decide))) (neighbour 8 3) (longRoute 1 (by decide)) =
      .ok (some announced) ∧
    Advertised (transit (longRoute 1 (by decide))) 3 (neighbour 8 3) (longRoute 1 (by decide)) announced := by
  have fits : okAnd (exportRoute (transit (longRoute 1 (by decide))) (neighbour 8 3)
      (longRoute 1 (by decide))) (fun verdict => verdict.isSome) = true := by decide +kernel
  obtain ⟨verdict, exported, isSome⟩ := okAnd_iff.mp fits
  obtain ⟨announced, rfl⟩ := Option.isSome_iff_exists.mp isSome
  exact ⟨announced, exported, (advertised_iff rfl exported).mpr fun _ => ⟨by decide +kernel, rfl⟩⟩

/-- The 256th hop is not prepended: AS 8 is told a path without AS 1. -/
theorem full_segment_not_prepended :
    ¬ ∀ (r : Router) (addr : NetAddr) (dst : Peer) (route announced : Route),
      r.locRib.findExact route.pfx = some route → r.peers.lookup addr = some dst →
      dst.filterOut = Filter.acceptAll → exportRoute r dst route = .ok (some announced) →
        Advertised r addr dst route announced := by
  intro claim
  have told : okAnd (exportRoute (transit (longRoute 255 (by decide))) (neighbour 8 3)
      (longRoute 255 (by decide)))
      (fun verdict => verdict.any fun announced =>
        decide (announced.attr.path = (longRoute 255 (by decide)).attr.path)) = true := by
    decide +kernel
  obtain ⟨verdict, exported, same⟩ := okAnd_iff.mp told
  obtain ⟨announced, rfl, samePath⟩ := (Option.any_eq_true _ _).mp same
  have advertised := claim (transit (longRoute 255 (by decide))) 3 (neighbour 8 3)
    (longRoute 255 (by decide)) announced (by simp [transit, Rib.findExact_addRoute]) rfl rfl exported
  have path := (advertised.toExternal (by decide)).path
  rw [of_decide_eq_true samePath] at path
  exact absurd path (by decide +kernel)

end Transit

end Cbgp.Verified

import Cbgp.Bgp.DecisionProcess
import Cbgp.Lib.Run

/-! # The BGP routes of a routing table

Deleting and adding routes of one protocol leaves those of the others (`routesTo_rtDelForEach`,
`rtAddRoute_fresh`).  `bgp_router_rt_add_route` and `bgp_router_rt_del_route` seen through
`bgpRoutesTo`: the first leaves exactly one BGP route towards its prefix and always succeeds (`bgpRouterRtAddRoute_ok`), the second
leaves none and fails exactly when the table has no route at all towards the prefix.
-/

namespace Cbgp.Verified

open Cbgp.Lib Cbgp.Net Cbgp.Bgp

/-- The BGP routes of a table towards a prefix. -/
def bgpRoutesTo (rt : NetRt) (p : Pfx) : List RtInfo :=
  (routesTo rt p).filter (·.type = .bgp)

/-- The route `bgp_router_rt_add_route` inserts. -/
def bgpRtInfo (p : Pfx) (nextHop : NetAddr) : RtInfo :=
  { pfx := p, metric := 0, type := .bgp, entries := [⟨none, nextHop⟩] }

theorem routesTo_congr (rt : NetRt) {p q : Pfx} (same : ipPrefixMask p = ipPrefixMask q) :
    routesTo rt p = routesTo rt q := by
  rw [routesTo, routesTo, same]

theorem bgpRoutesTo_congr (rt : NetRt) {p q : Pfx} (same : ipPrefixMask p = ipPrefixMask q) :
    bgpRoutesTo rt p = bgpRoutesTo rt q := by
  rw [bgpRoutesTo, bgpRoutesTo, routesTo_congr rt same]

theorem routesTo_insert (rt : NetRt) (p q : Pfx) (infos : RtInfos) :
    routesTo (rt.insert (ipPrefixMask p) infos) q =
      if ipPrefixMask q = ipPrefixMask p then infos.list else routesTo rt q := by
  by_cases same : ipPrefixMask q = ipPrefixMask p
  · rw [if_pos same, routesTo, same, AList.lookup_insert]
  · rw [if_neg same, routesTo, AList.lookup_insert_ne same, routesTo]

theorem routesTo_erase (rt : NetRt) (p q : Pfx) :
    routesTo (rt.erase (ipPrefixMask p)) q =
      if ipPrefixMask q = ipPrefixMask p then [] else routesTo rt q := by
  by_cases same : ipPrefixMask q = ipPrefixMask p
  · rw [if_pos same, routesTo, same, AList.lookup_erase]
  · rw [if_neg same, routesTo, AList.lookup_erase_ne same, routesTo]

theorem routesTo_sorted (rt : NetRt) (q : Pfx) :
    (routesTo rt q).Pairwise fun a b => rtInfoListCmp a b = .lt := by
  unfold routesTo
  split
  · exact List.Pairwise.nil
  next infos _ => exact infos.sorted

/-- A table is known from its routes of one protocol and its other routes. -/
theorem routesTo_eq_of_filters {rt rt' : NetRt} {q : Pfx} (type : RouteType)
    (same : (routesTo rt q).filter (·.type = type) = (routesTo rt' q).filter (·.type = type))
    (other : (routesTo rt q).filter (·.type ≠ type) = (routesTo rt' q).filter (·.type ≠ type)) :
    routesTo rt q = routesTo rt' q := by
  have parts : ∀ t : NetRt, ((routesTo t q).filter (·.type = type) ++
      (routesTo t q).filter (·.type ≠ type)).Perm (routesTo t q) := by
    intro t
    have parts := List.filter_append_perm (fun rtinfo : RtInfo => decide (rtinfo.type = type))
      (routesTo t q)
    simpa using parts
  refine List.Perm.eq_of_pairwise ?_ (routesTo_sorted rt q) (routesTo_sorted rt' q) ?_
  · intro a b _ _ less greater
    rw [← rtInfoListCmp_eq_gt, less] at greater
    cases greater
  · have parts' := parts rt
    rw [same, other] at parts'
    exact parts'.symm.trans (parts rt')

/-- Insertion puts a route where no filter that drops it can see it. -/
theorem sortedAdd_filter {rtinfo : RtInfo} {list added : List RtInfo} {keep : RtInfo → Bool}
    (h : sortedAdd rtinfo list = some added) (dropped : keep rtinfo = false) :
    added.filter keep = list.filter keep := by
  induction list generalizing added with
  | nil =>
    simp only [sortedAdd, Option.some.injEq] at h
    simp [← h, dropped]
  | cons other list inductionHypothesis =>
    simp only [sortedAdd] at h
    split at h
    · cases h
      rw [List.filter_cons_of_neg (by simp [dropped])]
    · cases h
    · obtain ⟨rest, inserted, rfl⟩ := Option.map_eq_some_iff.mp h
      rw [List.filter_cons, List.filter_cons, inductionHypothesis inserted]

theorem infosAdd_list {infos infos' : RtInfos} {rtinfo : RtInfo} (h : infos.add rtinfo = some infos') :
    sortedAdd rtinfo infos.list = some infos'.list := by
  unfold RtInfos.add at h
  split at h
  · cases h
  next inserted =>
    cases h
    exact inserted

theorem rtFilterMatches_type (type : RouteType) (rtinfo : RtInfo) (p : Option Pfx) :
    rtFilterMatches rtinfo { pfx := p, oif := none, gateway := none, type := type.bit } =
      decide (rtinfo.type = type) := by
  unfold rtFilterMatches
  cases type <;> cases rtinfo.type <;> rfl

/-! ## One protocol -/

/-- Deleting the routes of a protocol towards a prefix leaves the other routes. -/
theorem routesTo_rtDelForEach (type : RouteType) (p : Option Pfx) (rt : NetRt) (key q : Pfx) :
    routesTo (rtDelForEach { pfx := p, oif := none, gateway := none, type := type.bit } rt key).2 q =
      if ipPrefixMask q = ipPrefixMask key then (routesTo rt q).filter (·.type ≠ type) else routesTo rt q := by
  unfold rtDelForEach
  cases known : rt.lookup (ipPrefixMask key) with
  | none =>
    by_cases same : ipPrefixMask q = ipPrefixMask key
    · rw [if_pos same, routesTo, same, known]
      rfl
    · rw [if_neg same]
  | some infos =>
    have listed : ipPrefixMask q = ipPrefixMask key → routesTo rt q = infos.list := by
      intro same
      rw [routesTo, same, known]
    have kept : infos.list.filter (fun rtinfo => !decide (rtinfo.type = type)) =
        infos.list.filter (·.type ≠ type) := by
      simp
    simp only [rtFilterMatches_type, Option.isSome_none, Bool.and_false, Bool.false_and, Bool.false_eq_true,
      if_false]
    unfold RtInfos.filter
    by_cases emptied : infos.list.filter (fun rtinfo => !decide (rtinfo.type = type)) = []
    · rw [dif_pos emptied]
      simp only [routesTo_erase]
      split
      next same => rw [listed same, ← kept, emptied]
      next => rfl
    · rw [dif_neg emptied]
      simp only [routesTo_insert]
      split
      next same => rw [listed same, ← kept]
      next => rfl

/-- Adding a route of a protocol that has none towards the prefix leaves the other routes. -/
theorem rtAddRoute_fresh {rt : NetRt} {p : Pfx} {rtinfo : RtInfo} {type : RouteType} (of : rtinfo.type = type)
    (fresh : (routesTo rt p).filter (·.type = type) = []) :
    ∃ rt', rtAddRoute rt p rtinfo = (.success, rt') ∧
      (∀ q, (routesTo rt' q).filter (·.type = type) =
        if ipPrefixMask q = ipPrefixMask p then [rtinfo] else (routesTo rt q).filter (·.type = type)) ∧
      ∀ q, (routesTo rt' q).filter (·.type ≠ type) = (routesTo rt q).filter (·.type ≠ type) := by
  unfold rtAddRoute
  cases known : rt.lookup (ipPrefixMask p) with
  | none =>
    refine ⟨_, rfl, fun q => ?_, fun q => ?_⟩
    · rw [routesTo_insert]
      split
      · simp [RtInfos.single, of]
      · rfl
    · rw [routesTo_insert]
      split
      next same =>
        rw [routesTo, same, known]
        simp [RtInfos.single, of]
      next => rfl
  | some infos =>
    have listed : ∀ q, ipPrefixMask q = ipPrefixMask p → routesTo rt q = infos.list := by
      intro q same
      rw [routesTo, same, known]
    rw [listed p rfl] at fresh
    -- No route of the list is of the protocol, so the insertion finds no equal one.
    have others : ∀ other ∈ infos.list, other.type ≠ rtinfo.type := by
      intro other member
      rw [of]
      simpa using List.filter_eq_nil_iff.mp fresh other member
    obtain ⟨added, inserted⟩ := sortedAdd_isSome others
    have stored : ∃ infos', infos.add rtinfo = some infos' ∧ infos'.list = added := by
      unfold RtInfos.add
      split
      next failed => simp [inserted] at failed
      next got =>
        rw [inserted] at got
        cases got
        exact ⟨_, rfl, rfl⟩
    obtain ⟨infos', addedInfos, list⟩ := stored
    simp only [addedInfos]
    refine ⟨_, rfl, fun q => ?_, fun q => ?_⟩
    · rw [routesTo_insert]
      split
      · rw [list]
        have perm := (sortedAdd_perm inserted).filter fun r : RtInfo => decide (r.type = type)
        rw [List.filter_cons_of_pos (by simp [of]), fresh] at perm
        exact List.perm_singleton.mp perm
      · rfl
    · rw [routesTo_insert]
      split
      next same =>
        rw [list, listed q same]
        exact sortedAdd_filter inserted (by simp [of])
      next => rfl

/-! ## BGP -/

/-- Deleting the BGP routes towards a prefix the table knows. -/
theorem rtDelRoute_bgp {rt : NetRt} {p : Pfx} {infos : RtInfos}
    (known : rt.lookup (ipPrefixMask p) = some infos) :
    ∃ rt', rtDelRoute rt (some p) none none RouteType.bgp.bit = (.success, rt') ∧
      ∀ q, routesTo rt' q =
        if ipPrefixMask q = ipPrefixMask p then (routesTo rt q).filter (·.type ≠ .bgp)
        else routesTo rt q := by
  let filter : RtFilter := { pfx := some p, oif := none, gateway := none, type := RouteType.bgp.bit }
  refine ⟨(rtDelForEach filter rt p).2, ?_, routesTo_rtDelForEach .bgp (some p) rt p⟩
  simp [rtDelRoute, rtDelRoutes, rtDelForEach, known, filter]

/-- Deleting fails exactly on a prefix the table does not know. -/
theorem bgpRouterRtDelRoute_error {router : Router} {p : Pfx} {e : Abort}
    (failed : bgpRouterRtDelRoute router p = .error e) :
    e = .rtDelRoute ∧ router.rt.lookup (ipPrefixMask p) = none := by
  unfold bgpRouterRtDelRoute at failed
  cases known : router.rt.lookup (ipPrefixMask p) with
  | none =>
    split at failed
    · cases failed
    · cases failed
      exact ⟨rfl, rfl⟩
  | some infos =>
    obtain ⟨rt', deleted, _⟩ := rtDelRoute_bgp known
    simp [deleted] at failed

theorem bgpRouterRtDelRoute_ok {router router' : Router} {p : Pfx}
    (h : bgpRouterRtDelRoute router p = .ok router') :
    ∃ rt', router' = { router with rt := rt' } ∧
      (∀ q, bgpRoutesTo rt' q =
        if ipPrefixMask q = ipPrefixMask p then [] else bgpRoutesTo router.rt q) := by
  unfold bgpRouterRtDelRoute at h
  cases known : router.rt.lookup (ipPrefixMask p) with
  | none => simp [rtDelRoute, rtDelRoutes, rtDelForEach, known] at h
  | some infos =>
    obtain ⟨rt', deleted, routes⟩ := rtDelRoute_bgp known
    simp only [deleted, Except.ok.injEq] at h
    refine ⟨rt', h.symm, fun q => ?_⟩
    rw [bgpRoutesTo, routes]
    split
    · rw [List.filter_filter]
      exact List.filter_eq_nil_iff.mpr fun rtinfo _ => by simp
    · rfl

/-- Inserting a BGP route where there is none. -/
theorem rtAddRoute_bgp {rt : NetRt} {p : Pfx} (nextHop : NetAddr) (fresh : bgpRoutesTo rt p = []) :
    ∃ rt', rtAddRoute rt p (bgpRtInfo p nextHop) = (.success, rt') ∧
      ∀ q, bgpRoutesTo rt' q =
        if ipPrefixMask q = ipPrefixMask p then [bgpRtInfo p nextHop] else bgpRoutesTo rt q := by
  have type : (bgpRtInfo p nextHop).type = .bgp := rfl
  obtain ⟨rt', added, routes, _⟩ := rtAddRoute_fresh type fresh
  exact ⟨rt', added, routes⟩

/-- `rt_find_exact` finds a BGP route exactly when there is one. -/
theorem rtFindExact_bgp_none {rt : NetRt} {p : Pfx}
    (absent : rtFindExact rt p RouteType.bgp.bit = none) : bgpRoutesTo rt p = [] := by
  unfold rtFindExact at absent
  unfold bgpRoutesTo routesTo
  cases known : rt.lookup (ipPrefixMask p) with
  | none => rfl
  | some infos =>
    rw [known, Option.bind_some, RtInfos.first, List.find?_eq_none] at absent
    refine List.filter_eq_nil_iff.mpr fun rtinfo member isBgp => absent rtinfo member ?_
    simp only [decide_eq_true_eq] at isBgp
    rw [isBgp]
    decide

theorem rtFindExact_bgp_some {rt : NetRt} {p : Pfx} {rtinfo : RtInfo}
    (found : rtFindExact rt p RouteType.bgp.bit = some rtinfo) :
    ∃ infos, rt.lookup (ipPrefixMask p) = some infos := by
  unfold rtFindExact at found
  obtain ⟨infos, known, _⟩ := Option.bind_eq_some_iff.mp found
  exact ⟨infos, known⟩

/-- `bgp_router_rt_add_route` always succeeds and leaves one BGP route towards the prefix. -/
theorem bgpRouterRtAddRoute_ok (router : Router) (route : Route) :
    ∃ rt', bgpRouterRtAddRoute router route = .ok { router with rt := rt' } ∧
      ∀ q, bgpRoutesTo rt' q =
        if ipPrefixMask q = ipPrefixMask route.pfx then [bgpRtInfo route.pfx route.attr.nextHop]
        else bgpRoutesTo router.rt q := by
  unfold bgpRouterRtAddRoute
  cases found : rtFindExact router.rt route.pfx RouteType.bgp.bit with
  | none =>
    obtain ⟨rt', added, routes⟩ :=
      rtAddRoute_bgp route.attr.nextHop (rtFindExact_bgp_none found)
    refine ⟨rt', ?_, routes⟩
    simp only [bgpRtInfo] at added
    simp only [added]
  | some rtinfo =>
    obtain ⟨infos, known⟩ := rtFindExact_bgp_some found
    obtain ⟨mid, deleted, left⟩ := rtDelRoute_bgp known
    have emptied : ∀ q, bgpRoutesTo mid q =
        if ipPrefixMask q = ipPrefixMask route.pfx then [] else bgpRoutesTo router.rt q := by
      intro q
      rw [bgpRoutesTo, left]
      split
      · rw [List.filter_filter]
        exact List.filter_eq_nil_iff.mpr fun rtinfo _ => by simp
      · rfl
    obtain ⟨rt', added, routes⟩ :=
      rtAddRoute_bgp route.attr.nextHop ((emptied route.pfx).trans (if_pos rfl))
    refine ⟨rt', ?_, fun q => ?_⟩
    · simp only [bgpRtInfo] at added
      simp only [deleted, added]
    · rw [routes, emptied]
      split
      · rfl
      · rfl

end Cbgp.Verified

import Cbgp.Net.Igp
import Cbgp.Verified.BgpRoutes

/-! # The IGP routes of a routing table

`rt_del_route` with a wildcard and `rt_add_route`, seen through the IGP routes towards a prefix
(`igpRoutesTo`) and the other ones (`otherRoutesTo`).  Deleting leaves the other routes, and adding a
forwarding table to a table without IGP routes makes the IGP routes those of the forwarding table.
Together the two parts determine the list of routes (`routesTo_eq_of_parts`).
-/

namespace Cbgp.Verified

open Cbgp.Lib Cbgp.Net

/-- The IGP routes of a table towards a prefix. -/
def igpRoutesTo (rt : NetRt) (q : Pfx) : List RtInfo :=
  (routesTo rt q).filter (·.type = .igp)

/-- The routes of the other protocols. -/
def otherRoutesTo (rt : NetRt) (q : Pfx) : List RtInfo :=
  (routesTo rt q).filter (·.type ≠ .igp)

/-- A table is known from its IGP routes and its other routes. -/
theorem routesTo_eq_of_parts {rt rt' : NetRt} {q : Pfx} (igp : igpRoutesTo rt q = igpRoutesTo rt' q)
    (other : otherRoutesTo rt q = otherRoutesTo rt' q) : routesTo rt q = routesTo rt' q :=
  routesTo_eq_of_filters .igp igp other

/-! ## Deleting -/

/-- Deleting the IGP routes with a wildcard leaves the other routes. -/
theorem routesTo_rtDelRoute_igp (rt : NetRt) (q : Pfx) :
    routesTo (rtDelRoute rt none none none RouteType.igp.bit).2 q = otherRoutesTo rt q := by
  -- what is left after some of the keys
  have visited : ∀ (keys : List Pfx) (t : NetRt),
      routesTo (keys.foldl (fun t key => (rtDelForEach
        { pfx := none, oif := none, gateway := none, type := RouteType.igp.bit } t key).2) t) q =
        if ∃ key ∈ keys, ipPrefixMask q = ipPrefixMask key then otherRoutesTo t q
        else routesTo t q := by
    intro keys
    induction keys with
    | nil => simp
    | cons key keys inductionHypothesis =>
      intro t
      rw [List.foldl_cons, inductionHypothesis, otherRoutesTo, routesTo_rtDelForEach]
      by_cases first : ipPrefixMask q = ipPrefixMask key
      · simp [first, otherRoutesTo]
      · simp [first, otherRoutesTo]
  rw [rtDelRoute, rtDelRoutes]
  dsimp only
  rw [visited]
  split
  next => rfl
  next unvisited =>
    -- a prefix that no key stands for has no route
    have absent : rt.lookup (ipPrefixMask q) = none := by
      rw [AList.lookup_eq_none, AList.mem_keys]
      intro member
      exact unvisited ⟨ipPrefixMask q, member, (ipPrefixMask_idem q).symm⟩
    rw [otherRoutesTo, routesTo, absent]
    rfl

/-! ## Adding -/

/-- Adding an IGP route where there is none. -/
theorem rtAddRoute_igp {rt : NetRt} {p : Pfx} {rtinfo : RtInfo} (type : rtinfo.type = .igp)
    (fresh : igpRoutesTo rt p = []) :
    ∃ rt', rtAddRoute rt p rtinfo = (.success, rt') ∧
      (∀ q, igpRoutesTo rt' q =
        if ipPrefixMask q = ipPrefixMask p then [rtinfo] else igpRoutesTo rt q) ∧
      ∀ q, otherRoutesTo rt' q = otherRoutesTo rt q :=
  rtAddRoute_fresh type fresh

/-- A forwarding table as `_spt_compute_fib` builds it: IGP routes under masked prefixes. -/
def SoundFib (fib : Fib) : Prop :=
  ∀ key rtinfo, fib.lookup key = some rtinfo → ipPrefixMask key = key ∧ rtinfo.type = .igp

/-- The loop that adds a forwarding table to a routing table without IGP routes never fails, and
leaves exactly the routes of the forwarding table as IGP routes. -/
theorem addFib_spec {fib : Fib} {rt : NetRt} (sound : SoundFib fib)
    (fresh : ∀ q, igpRoutesTo rt q = []) :
    ∃ rt', addFib fib rt = (.success, rt') ∧
      (∀ q, igpRoutesTo rt' q = (fib.lookup (ipPrefixMask q)).toList) ∧
      ∀ q, otherRoutesTo rt' q = otherRoutesTo rt q := by
  -- The entries have distinct keys, so each insertion meets a prefix without an IGP route.
  have loop : ∀ (entries : List (Sigma fun _ : Pfx => RtInfo)) (t : NetRt), entries.NodupKeys →
      (∀ e ∈ entries, ipPrefixMask e.1 = e.1 ∧ e.2.type = .igp ∧ igpRoutesTo t e.1 = []) →
      ∃ rt', entries.foldl igpComputePrefixForEach (.success, t) = (.success, rt') ∧
        (∀ q, igpRoutesTo rt' q =
          ((entries.dlookup (ipPrefixMask q)).map fun rtinfo => [rtinfo]).getD (igpRoutesTo t q)) ∧
        ∀ q, otherRoutesTo rt' q = otherRoutesTo t q := by
    intro entries
    induction entries with
    | nil =>
      intro t _ _
      exact ⟨t, rfl, fun q => by simp, fun q => rfl⟩
    | cons e entries inductionHypothesis =>
      intro t distinct routes
      obtain ⟨masked, type, empty⟩ := routes e List.mem_cons_self
      obtain ⟨mid, added, igp, other⟩ := rtAddRoute_igp type empty
      rw [List.nodupKeys_cons] at distinct
      have later : ∀ e' ∈ entries,
          ipPrefixMask e'.1 = e'.1 ∧ e'.2.type = .igp ∧ igpRoutesTo mid e'.1 = [] := by
        intro e' member
        obtain ⟨masked', type', empty'⟩ := routes e' (List.mem_cons_of_mem _ member)
        refine ⟨masked', type', ?_⟩
        have differ : e'.1 ≠ e.1 := fun same =>
          distinct.1 (List.mem_keys.mpr ⟨e'.2, same ▸ member⟩)
        rw [igp, if_neg (by rw [masked, masked']; exact differ), empty']
      obtain ⟨rt', looped, igp', other'⟩ := inductionHypothesis mid distinct.2 later
      refine ⟨rt', ?_, fun q => ?_, fun q => ?_⟩
      · rw [List.foldl_cons, show igpComputePrefixForEach (.success, t) e = (.success, mid) from added]
        exact looped
      · rw [igp', igp]
        obtain ⟨key, rtinfo⟩ := e
        by_cases same : ipPrefixMask q = key
        · have gone : List.dlookup (ipPrefixMask q) entries = none := by
            rw [List.dlookup_eq_none, same]
            exact distinct.1
          rw [gone, same, List.dlookup_cons_eq, if_pos masked.symm]
          rfl
        · rw [List.dlookup_cons_ne _ _ same, if_neg (by rw [masked]; exact same)]
      · rw [other', other]
  obtain ⟨rt', looped, igp, other⟩ := loop fib.entries rt fib.nodupKeys (by
    intro e member
    obtain ⟨masked, type⟩ := sound e.1 e.2 (Table.mem_entries_iff.mp member)
    exact ⟨masked, type, fresh e.1⟩)
  refine ⟨rt', looped, fun q => ?_, other⟩
  rw [igp, fresh]
  change _ = (fib.entries.dlookup (ipPrefixMask q)).toList
  cases fib.entries.dlookup (ipPrefixMask q) <;> rfl

end Cbgp.Verified

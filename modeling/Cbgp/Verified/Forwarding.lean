import Cbgp.Net.Forwarding
import Cbgp.Verified.BgpRoutes

/-! # Forwarding along resolved and unresolved routes

`_node_ip_output` resolves a gateway with one extra lookup.  In every routing table built by adding
static, IGP and BGP routes (`RtReach`) a message either leaves through an interface or is reported
unreachable exactly when the entry it follows is `Resolved` (`forwards_iff_resolved`): the lookup of
its gateway fails, comes back to the entry itself, or gives a route whose first entry has an
interface.  Two gateway-only routes in a row make the node read through a null interface
(`gateway_chain_faults`).
-/

namespace Cbgp.Verified

open Cbgp.Lib Cbgp.Net Cbgp.Bgp

/-! ## Lookups return routes of the table -/

section Lookup

variable {V : Type} {addr : NetAddr}

/-- One step of the longest-match search. -/
def longer (addr : NetAddr) (best : Option (Sigma fun _ : Pfx => V)) (e : Sigma fun _ : Pfx => V) :
    Option (Sigma fun _ : Pfx => V) :=
  if ipAddressInPrefix addr e.1 then
    match best with
    | none => some e
    | some b => if b.1.mask < e.1.mask then some e else some b
  else best

theorem longest_mem {entries : List (Sigma fun _ : Pfx => V)}
    {best : Option (Sigma fun _ : Pfx => V)} {e : Sigma fun _ : Pfx => V}
    (found : entries.foldl (longer addr) best = some e) : best = some e ∨ e ∈ entries := by
  induction entries generalizing best with
  | nil => exact .inl found
  | cons head entries inductionHypothesis =>
    have next : longer addr best head = best ∨ longer addr best head = some head := by
      unfold longer
      split
      · cases best with
        | none => exact .inr rfl
        | some b =>
          dsimp only
          split
          · exact .inr rfl
          · exact .inl rfl
      · exact .inl rfl
    cases inductionHypothesis found with
    | inr later => exact .inr (List.mem_cons_of_mem _ later)
    | inl now =>
      cases next with
      | inl kept => exact .inl (kept ▸ now)
      | inr replaced =>
        rw [replaced, Option.some.injEq] at now
        exact .inr (now ▸ List.mem_cons_self)

theorem longest_isSome (entries : List (Sigma fun _ : Pfx => V))
    (best : Option (Sigma fun _ : Pfx => V)) :
    (entries.foldl (longer addr) best).isSome ↔
      best.isSome ∨ ∃ e ∈ entries, ipAddressInPrefix addr e.1 = true := by
  induction entries generalizing best with
  | nil => simp
  | cons head entries inductionHypothesis =>
    rw [List.foldl_cons, inductionHypothesis]
    have next : (longer addr best head).isSome ↔
        best.isSome ∨ ipAddressInPrefix addr head.1 = true := by
      unfold longer
      split
      next inside =>
        cases best with
        | none => simp [inside]
        | some b =>
          dsimp only
          split
          · simp
          · simp
      next outside => simp [outside]
    rw [next]
    simp only [List.mem_cons, exists_eq_or_imp]
    rw [or_assoc]

/-- Some entry holds the address exactly when the longest-match lookup finds one. -/
theorem trieFindBest_isSome {t : Trie V} :
    (trieFindBest t addr).isSome ↔ ∃ key ∈ t.keys, ipAddressInPrefix addr key = true := by
  have found := @longest_isSome V addr t.entries none
  simp only [Option.isSome_none, Bool.false_eq_true, false_or] at found
  rw [show (trieFindBest t addr).isSome = (t.entries.foldl (longer addr) none).isSome from
    Option.isSome_map, found]
  simp [AList.keys, List.keys]

theorem trieFindBest_mem {t : Trie V} {v : V} (found : trieFindBest t addr = some v) :
    ∃ key, t.lookup key = some v := by
  obtain ⟨e, longest, rfl⟩ := Option.map_eq_some_iff.mp found
  cases longest_mem longest with
  | inl start => cases start
  | inr member => exact ⟨e.1, Table.mem_entries_iff.mp member⟩

end Lookup

/-- The routes of a table. -/
def InTable (rt : NetRt) (key : Pfx) (rtinfo : RtInfo) : Prop :=
  ∃ infos, rt.lookup key = some infos ∧ rtinfo ∈ infos.list

theorem rtFindBest_inTable {rt : NetRt} {addr : NetAddr} {type : UInt8} {rtinfo : RtInfo}
    (found : rtFindBest rt addr type = some rtinfo) : ∃ key, InTable rt key rtinfo := by
  obtain ⟨infos, best, first⟩ := Option.bind_eq_some_iff.mp found
  obtain ⟨key, stored⟩ := trieFindBest_mem best
  exact ⟨key, infos, stored, List.mem_of_find?_eq_some first⟩

/-- A lookup of any protocol fails only where the table covers nothing. -/
theorem rtFindBest_isSome {rt : NetRt} {addr : NetAddr} :
    (rtFindBest rt addr netRouteAny).isSome ↔
      ∃ key ∈ rt.keys, ipAddressInPrefix addr key = true := by
  rw [← trieFindBest_isSome, rtFindBest]
  cases trieFindBest rt addr with
  | none => rfl
  | some infos =>
    have first : (infos.first netRouteAny).isSome := by
      rw [RtInfos.first, List.find?_isSome]
      obtain ⟨rtinfo, rest, list⟩ := List.exists_cons_of_ne_nil infos.nonempty
      refine ⟨rtinfo, by simp [list], ?_⟩
      cases rtinfo.type <;> decide
    simpa using first

/-! ## Tables a node can have -/

section Tables

variable {N I S : Type} (net : Topology N I S) (node : N)

/-- A route as the three protocols leave it: it stands under its own prefix, it has an entry, and
its interfaces are interfaces of the node. -/
structure SoundRoute (key : Pfx) (rtinfo : RtInfo) : Prop where
  key_eq : ipPrefixMask rtinfo.pfx = key
  nonempty : rtinfo.entries ≠ []
  known : ∀ entry ∈ rtinfo.entries, ∀ addr, entry.oif = some addr →
    ∃ i, net.nodeFindIface node addr = some i

/-- A table whose routes are all sound. -/
def SoundTable (rt : NetRt) : Prop :=
  ∀ key rtinfo, InTable rt key rtinfo → SoundRoute net node key rtinfo

/-- What can happen to a routing table. -/
inductive RtOp where
  | add (pfx : Pfx) (oifId gateway : NetAddr) (weight : UInt32) (type : RouteType)
  | fib (rtinfo : RtInfo)
  | bgp (router : Router) (route : Route)
  | del (pfx : Option Pfx) (oif gateway : Option NetAddr) (type : UInt8)

/-- `node_rt_add_route`, `_igp_compute_prefix_for_each`, `bgp_router_rt_add_route`,
`node_rt_del_route`. -/
def rtStep (rt : NetRt) : RtOp → Except Unit NetRt
  | .add pfx oifId gateway weight type =>
    (nodeRtAddRoute net node rt pfx oifId gateway weight type).map (·.2)
  | .fib rtinfo => .ok (rtAddRoute rt rtinfo.pfx rtinfo).2
  | .bgp router route =>
    match bgpRouterRtAddRoute router route with
    | .ok router' => .ok router'.rt
    | .error _ => .error ()
  | .del pfx oif gateway type => .ok (rtDelRoute rt pfx oif gateway type).2

/-- A FIB route has entries, which leave through interfaces of the node; a BGP router acts on the
table of its own node. -/
def RtAllowed (rt : NetRt) : RtOp → Prop
  | .fib rtinfo => SoundRoute net node (ipPrefixMask rtinfo.pfx) rtinfo
  | .bgp router _ => router.rt = rt
  | _ => True

/-- The routing tables a node can have. -/
def RtReach (rt : NetRt) : Prop :=
  Reach (rtStep net node) (RtAllowed net node) ∅ rt

variable {net node} {rt : NetRt}

namespace SoundTable

theorem insert (sound : SoundTable net node rt) {key : Pfx} {infos : RtInfos}
    (routes : ∀ rtinfo ∈ infos.list, SoundRoute net node key rtinfo) :
    SoundTable net node (rt.insert key infos) := by
  rintro key' rtinfo ⟨infos', stored, member⟩
  by_cases same : key' = key
  · subst same
    rw [AList.lookup_insert, Option.some.injEq] at stored
    subst stored
    exact routes rtinfo member
  · rw [AList.lookup_insert_ne same] at stored
    exact sound key' rtinfo ⟨infos', stored, member⟩

theorem erase (sound : SoundTable net node rt) (key : Pfx) : SoundTable net node (rt.erase key) := by
  rintro key' rtinfo ⟨infos', stored, member⟩
  by_cases same : key' = key
  · subst same
    simp [AList.lookup_erase] at stored
  · rw [AList.lookup_erase_ne same] at stored
    exact sound key' rtinfo ⟨infos', stored, member⟩

theorem rtAddRoute (sound : SoundTable net node rt) {pfx : Pfx} {rtinfo : RtInfo}
    (route : SoundRoute net node (ipPrefixMask pfx) rtinfo) :
    SoundTable net node (Net.rtAddRoute rt pfx rtinfo).2 := by
  unfold Net.rtAddRoute
  split
  next fresh => exact sound.insert (by simpa [RtInfos.single] using route)
  next infos stored =>
    unfold RtInfos.add
    split
    next => exact sound
    next added got =>
      split at got
      next => cases got
      next list inserted =>
        cases got
        refine sound.insert fun other member => ?_
        rcases List.mem_cons.mp ((sortedAdd_perm inserted).mem_iff.mp member) with rfl | member
        · exact route
        · exact sound _ other ⟨infos, stored, member⟩

theorem rtDelForEach (sound : SoundTable net node rt) (filter : RtFilter) (key : Pfx) :
    SoundTable net node (Net.rtDelForEach filter rt key).2 := by
  cases stored : rt.lookup (ipPrefixMask key) with
  | none =>
    unfold Net.rtDelForEach
    rw [stored]
    exact sound
  | some infos =>
    obtain ⟨-, erased⟩ | ⟨kept, filtered, inserted⟩ := rtDelForEach_snd stored
    · rw [erased]
      exact sound.erase _
    · rw [inserted]
      unfold RtInfos.filter at filtered
      split at filtered
      next => cases filtered
      next =>
        cases filtered
        exact sound.insert fun rtinfo member =>
          sound _ rtinfo ⟨infos, stored, List.mem_of_mem_filter member⟩

theorem rtDelRoute (sound : SoundTable net node rt) (pfx : Option Pfx) (oif gateway : Option NetAddr)
    (type : UInt8) : SoundTable net node (Net.rtDelRoute rt pfx oif gateway type).2 := by
  unfold Net.rtDelRoute rtDelRoutes
  cases pfx with
  | some pfx => exact sound.rtDelForEach _ pfx
  | none =>
    -- the wildcard deletes prefix by prefix
    dsimp only
    generalize rt.keys = keys
    induction keys generalizing rt with
    | nil => exact sound
    | cons key keys inductionHypothesis => exact inductionHypothesis (sound.rtDelForEach _ key)

theorem empty : SoundTable net node ∅ := by
  rintro key rtinfo ⟨infos, stored, _⟩
  simp at stored

end SoundTable

theorem mem_rtEntriesAdd {entry : RtEntry} {entries added : List RtEntry}
    (h : rtEntriesAdd entry entries = some added) : added.Perm (entry :: entries) := by
  induction entries generalizing added with
  | nil =>
    simp only [rtEntriesAdd, Option.some.injEq] at h
    rw [← h]
  | cons other entries inductionHypothesis =>
    simp only [rtEntriesAdd] at h
    split at h
    · cases h
      exact List.Perm.refl _
    · cases h
    · obtain ⟨rest, inserted, rfl⟩ := Option.map_eq_some_iff.mp h
      exact ((inductionHypothesis inserted).cons other).trans (List.Perm.swap _ _ _)

/-- Adding a path to a route, or a new route, along an interface of the node. -/
theorem nodeRtAddRouteLink_sound {pfx : Pfx} {oif : Option I} {gateway : NetAddr} {weight : UInt32}
    {type : RouteType} {e : NetError} {rt' : NetRt} (sound : SoundTable net node rt)
    (known : ∀ i, oif = some i → ∃ j, net.nodeFindIface node (net.iface i).addr = some j)
    (h : nodeRtAddRouteLink net rt pfx oif gateway weight type = .ok (e, rt')) :
    SoundTable net node rt' := by
  unfold nodeRtAddRouteLink at h
  rw [except_bind_eq_ok] at h
  obtain ⟨refused, _, h⟩ := h
  have entryKnown : ∀ addr, oif.map (fun i => (net.iface i).addr) = some addr →
      ∃ i, net.nodeFindIface node addr = some i := by
    intro addr mapped
    obtain ⟨i, chosen, rfl⟩ := Option.map_eq_some_iff.mp mapped
    exact known i chosen
  cases refused with
  | some e' =>
    cases h
    exact sound
  | none =>
    dsimp only at h
    split at h
    next absent =>
      -- a new route
      simp only [pure, Except.pure, Except.ok.injEq] at h
      have result := congrArg Prod.snd h
      dsimp only at result
      rw [← result]
      refine sound.rtAddRoute { key_eq := rfl, nonempty := List.cons_ne_nil _ _, known := ?_ }
      intro entry member addr
      rw [List.mem_singleton] at member
      subst member
      exact entryKnown addr
    next rtinfo found =>
      split at h
      next entries infos added stored =>
        -- a parallel path
        cases h
        refine sound.insert fun other member => ?_
        obtain ⟨old, oldMember, rfl⟩ := List.mem_map.mp member
        have oldSound := sound _ old ⟨infos, stored, oldMember⟩
        split
        next same =>
          subst same
          refine { key_eq := oldSound.key_eq, nonempty := ?_, known := ?_ }
          · intro emptied
            have emptied : entries = [] := emptied
            have := (mem_rtEntriesAdd added).length_eq
            simp [emptied] at this
          · intro entry entryMember addr
            rcases List.mem_cons.mp ((mem_rtEntriesAdd added).mem_iff.mp entryMember) with rfl | older
            · exact entryKnown addr
            · exact oldSound.known entry older addr
        next => exact oldSound
      next =>
        cases h
        exact sound

/-- The table `bgp_router_rt_add_route` leaves. -/
theorem bgpRouterRtAddRoute_rt {router router' : Router} {route : Route}
    (h : bgpRouterRtAddRoute router route = .ok router') :
    ∃ mid, (mid = router.rt ∨
        mid = (rtDelRoute router.rt (some route.pfx) none none RouteType.bgp.bit).2) ∧
      router'.rt = (rtAddRoute mid route.pfx (bgpRtInfo route.pfx route.attr.nextHop)).2 := by
  unfold bgpRouterRtAddRoute at h
  cases found : rtFindExact router.rt route.pfx RouteType.bgp.bit with
  | none =>
    rw [found] at h
    dsimp only at h
    split at h
    next rt inserted =>
      cases h
      exact ⟨_, .inl rfl, (congrArg Prod.snd inserted).symm⟩
    next => cases h
  | some rtinfo =>
    rw [found] at h
    dsimp only at h
    split at h
    next rt inserted =>
      cases h
      exact ⟨_, .inr rfl, (congrArg Prod.snd inserted).symm⟩
    next => cases h

/-- A new table is sound whatever is done to a sound one. -/
theorem rtStep_sound {op : RtOp} {rt' : NetRt} (sound : SoundTable net node rt)
    (allowed : RtAllowed net node rt op) (stepped : rtStep net node rt op = .ok rt') :
    SoundTable net node rt' := by
  cases op with
  -- An interface that is stored is one of the node: it was found there by its address.
  | add pfx oifId gateway weight type =>
    obtain ⟨⟨e, _⟩, added, rfl⟩ := except_map_eq_ok.mp stepped
    unfold nodeRtAddRoute at added
    split at added
    next => exact nodeRtAddRouteLink_sound sound (by simp) added
    next =>
      split at added
      next =>
        cases added
        exact sound
      next i found =>
        split at added
        next =>
          cases added
          exact sound
        next =>
          refine nodeRtAddRouteLink_sound sound (fun j chosen => ?_) added
          cases chosen
          rw [(net.nodeFindIface_addr found).2]
          exact ⟨i, found⟩
  | fib rtinfo =>
    cases stepped
    exact sound.rtAddRoute allowed
  | bgp router route =>
    have same : router.rt = rt := allowed
    subst same
    simp only [rtStep] at stepped
    split at stepped
    next router' added =>
      cases stepped
      obtain ⟨mid, old, final⟩ := bgpRouterRtAddRoute_rt added
      rw [final]
      refine SoundTable.rtAddRoute ?_
        { key_eq := rfl, nonempty := by simp [bgpRtInfo], known := by simp [bgpRtInfo] }
      -- The installation removes the old BGP route of the prefix first, if there is one.
      rcases old with rfl | rfl
      · exact sound
      · exact sound.rtDelRoute _ _ _ _
    next => cases stepped
  | del pfx oif gateway type =>
    cases stepped
    exact sound.rtDelRoute _ _ _ _

theorem RtReach.sound (reached : RtReach net node rt) : SoundTable net node rt :=
  Reach.invariant reached SoundTable.empty rtStep_sound

/-! ## Resolution -/

/-- The message leaves through an interface, or its destination is reported unreachable. -/
def Forwards (x : Except Fault (Output I)) : Prop :=
  x = .ok (.error .hostUnreach) ∨ ∃ oif l2Addr msg, x = .ok (.send oif l2Addr msg)

/-- The first entry of a route has an outgoing interface. -/
def HasInterface (rtinfo : RtInfo) : Prop :=
  ∃ entry addr, rtinfo.entries.head? = some entry ∧ entry.oif = some addr

/-- An entry is resolved when it has an interface, or the route towards its gateway is absent,
starts with this same entry, or starts with an entry that has an interface. -/
def Resolved (rt : NetRt) (ref : EntryRef) : Prop :=
  ∀ entry, ref.deref = some entry → entry.oif = none →
    ∀ next, rtFindBest rt entry.gateway netRouteAny = some next →
      ref = next.entry0 ∨ HasInterface next

/-- An entry that has an interface of the node sends the message there. -/
theorem output_of_interface {entry : RtEntry} {addr dst : NetAddr} {i : I} (msg : NetMsg)
    {ref : EntryRef} (points : ref.deref = some entry) (oif : entry.oif = some addr)
    (known : net.nodeFindIface node addr = some i)
    {start : EntryRef} (resolves : resolveEntry rt start msg.dstAddr = .ok (some (dst, ref))) :
    Forwards (nodeIpOutput net node rt start msg) := by
  right
  simp only [nodeIpOutput, resolves, bind, Except.bind, points, oif, known]
  exact ⟨_, _, _, rfl⟩

theorem output_of_unreachable (msg : NetMsg) {start : EntryRef}
    (resolves : resolveEntry rt start msg.dstAddr = .ok none) :
    Forwards (nodeIpOutput net node rt start msg) := by
  refine .inl ?_
  simp only [nodeIpOutput, resolves, bind, Except.bind]
  rfl

theorem entry0_deref (rtinfo : RtInfo) : rtinfo.entry0.deref = rtinfo.entries.head? := by
  simp [EntryRef.deref, RtInfo.entry0, List.head?_eq_getElem?]

/-- Along an entry of a sound table the message is forwarded exactly when the entry is resolved. -/
theorem nodeIpOutput_forwards_iff (sound : SoundTable net node rt) {key : Pfx} {ref : EntryRef}
    (inTable : InTable rt key ref.route) (inside : ref.index < ref.route.entries.length)
    (msg : NetMsg) : Forwards (nodeIpOutput net node rt ref msg) ↔ Resolved rt ref := by
  obtain ⟨entry, points⟩ : ∃ entry, ref.deref = some entry :=
    ⟨_, List.getElem?_eq_getElem inside⟩
  cases oif : entry.oif with
  | some addr =>
    have resolves : resolveEntry rt ref msg.dstAddr = .ok (some (msg.dstAddr, ref)) := by
      simp only [resolveEntry, points, oif]
    obtain ⟨i, known⟩ :=
      (sound key _ inTable).known entry (List.mem_of_getElem? points) addr oif
    refine iff_of_true (output_of_interface msg points oif known resolves) ?_
    intro entry' points' unset
    rw [points, Option.some.injEq] at points'
    rw [← points', oif] at unset
    cases unset
  | none =>
    cases found : rtFindBest rt entry.gateway netRouteAny with
    | none =>
      have resolves : resolveEntry rt ref msg.dstAddr = .ok none := by
        simp only [resolveEntry, points, oif, found]
      refine iff_of_true (output_of_unreachable msg resolves) ?_
      intro entry' points' _ next found'
      rw [points, Option.some.injEq] at points'
      rw [← points', found] at found'
      cases found'
    | some next =>
      by_cases same : ref = next.entry0
      · have resolves : resolveEntry rt ref msg.dstAddr = .ok none := by
          simp only [resolveEntry, points, oif, found, if_pos same]
        refine iff_of_true (output_of_unreachable msg resolves) ?_
        intro entry' points' _ next' found'
        rw [points, Option.some.injEq] at points'
        rw [← points', found, Option.some.injEq] at found'
        exact .inl (found' ▸ same)
      · have resolves : resolveEntry rt ref msg.dstAddr =
            .ok (some (entry.gateway, next.entry0)) := by
          simp only [resolveEntry, points, oif, found, if_neg same]
        obtain ⟨key', nextIn⟩ := rtFindBest_inTable found
        obtain ⟨first, rest, entries⟩ :=
          List.exists_cons_of_ne_nil (sound key' next nextIn).nonempty
        have firstPoints : next.entry0.deref = some first := by
          rw [entry0_deref, entries, List.head?_cons]
        cases firstOif : first.oif with
        | some addr =>
          obtain ⟨i, known⟩ :=
            (sound key' next nextIn).known first (by simp [entries]) addr firstOif
          refine iff_of_true (output_of_interface msg firstPoints firstOif known resolves) ?_
          intro entry' points' _ next' found'
          rw [points, Option.some.injEq] at points'
          rw [← points', found, Option.some.injEq] at found'
          subst found'
          exact .inr ⟨first, addr, by simp [entries], firstOif⟩
        | none =>
          -- both entries lack an interface, and the second is read through
          have faults : nodeIpOutput net node rt ref msg = .error .nullInterface := by
            simp only [nodeIpOutput, resolves, bind, Except.bind, firstPoints, firstOif]
            rfl
          refine iff_of_false ?_ ?_
          · rw [faults]
            rintro (h | ⟨_, _, _, h⟩)
            · cases h
            · cases h
          · intro resolved
            rcases resolved entry points oif next found with again | ⟨first', addr, head, set⟩
            · exact same again
            · rw [entries, List.head?_cons, Option.some.injEq] at head
              rw [← head, firstOif] at set
              cases set

/-! ## The routes BGP installs -/

theorem mem_rtAddRoute {pfx : Pfx} {rtinfo : RtInfo} {key : Pfx}
    (covered : key = ipPrefixMask pfx ∨ key ∈ rt) : key ∈ (rtAddRoute rt pfx rtinfo).2 := by
  unfold rtAddRoute
  split
  next => exact (AList.mem_insert _).mpr covered
  next infos stored =>
    split
    next =>
      rcases covered with rfl | old
      · rw [← AList.lookup_isSome, stored, Option.isSome_some]
      · exact old
    next => exact (AList.mem_insert _).mpr covered

theorem mem_rtDelForEach {filter : RtFilter} {pfx key : Pfx} (old : key ∈ rt)
    (other : key ≠ ipPrefixMask pfx) : key ∈ (rtDelForEach filter rt pfx).2 := by
  cases stored : rt.lookup (ipPrefixMask pfx) with
  | none =>
    unfold rtDelForEach
    rw [stored]
    exact old
  | some infos =>
    obtain ⟨-, erased⟩ | ⟨kept, -, inserted⟩ := rtDelForEach_snd stored
    · rw [erased]
      exact AList.mem_erase.mpr ⟨other, old⟩
    · rw [inserted]
      exact (AList.mem_insert _).mpr (.inr old)

/-- Installing a BGP route takes no prefix out of the table. -/
theorem bgpRouterRtAddRoute_covers {router router' : Router} {route : Route}
    (added : bgpRouterRtAddRoute router route = .ok router') {addr : NetAddr}
    (before : (rtFindBest router.rt addr netRouteAny).isSome) :
    ∃ next, rtFindBest router'.rt addr netRouteAny = some next := by
  rw [rtFindBest_isSome] at before
  obtain ⟨key, old, inside⟩ := before
  rw [← Option.isSome_iff_exists, rtFindBest_isSome]
  refine ⟨key, ?_, inside⟩
  rw [← AList.mem_keys] at old ⊢
  obtain ⟨mid, from_old, final⟩ := bgpRouterRtAddRoute_rt added
  rw [final]
  apply mem_rtAddRoute
  by_cases same : key = ipPrefixMask route.pfx
  · exact .inl same
  · right
    rcases from_old with rfl | rfl
    · exact old
    · exact mem_rtDelForEach old same

theorem bgpRouterRtAddRoute_inTable {router router' : Router} {route : Route}
    (added : bgpRouterRtAddRoute router route = .ok router') :
    InTable router'.rt (ipPrefixMask route.pfx) (bgpRtInfo route.pfx route.attr.nextHop) := by
  obtain ⟨rt', added', routes⟩ := bgpRouterRtAddRoute_ok router route
  rw [added, Except.ok.injEq] at added'
  subst added'
  have installed : bgpRtInfo route.pfx route.attr.nextHop ∈ bgpRoutesTo rt' route.pfx := by
    rw [routes, if_pos rfl]
    exact List.mem_singleton_self _
  have listed := List.mem_of_mem_filter installed
  unfold routesTo at listed
  split at listed
  next => cases listed
  next infos stored => exact ⟨infos, stored, listed⟩

/-- In every table a node can have: along any entry a message is forwarded exactly when the entry is
resolved, hence towards a destination exactly when the first entry of its route is; and a feasible
route that BGP installs forwards exactly when the route towards its next-hop, once it is installed,
is the route itself or starts with an entry that has an interface. -/
theorem forwards_iff_resolved (net : Topology N I S) (node : N) (rt : NetRt)
    (reached : RtReach net node rt) :
    (∀ key rtinfo, InTable rt key rtinfo → ∀ index < rtinfo.entries.length, ∀ msg,
      (Forwards (nodeIpOutput net node rt ⟨rtinfo, index⟩ msg) ↔ Resolved rt ⟨rtinfo, index⟩)) ∧
    (∀ msg, Forwards (nodeForward net node rt msg) ↔
      ∀ rtinfo, rtFindBest rt msg.dstAddr netRouteAny = some rtinfo → Resolved rt rtinfo.entry0) ∧
    (∀ (router router' : Router) (route : Route), router.rt = rt →
      nextHopReachable router route = true → bgpRouterRtAddRoute router route = .ok router' →
      ∀ msg,
        (Forwards (nodeIpOutput net node router'.rt
            (bgpRtInfo route.pfx route.attr.nextHop).entry0 msg) ↔
          ∃ next, rtFindBest router'.rt route.attr.nextHop netRouteAny = some next ∧
            (next = bgpRtInfo route.pfx route.attr.nextHop ∨ HasInterface next))) := by
  have sound := reached.sound
  refine ⟨?_, ?_, ?_⟩
  · intro key rtinfo inTable index inside msg
    exact nodeIpOutput_forwards_iff sound inTable inside msg
  · intro msg
    unfold nodeForward
    cases found : rtFindBest rt msg.dstAddr netRouteAny with
    | none => exact iff_of_true (.inl rfl) (fun _ h => by cases h)
    | some rtinfo =>
      obtain ⟨key, inTable⟩ := rtFindBest_inTable found
      have inside : rtinfo.entry0.index < rtinfo.entry0.route.entries.length :=
        List.length_pos_iff.mpr (sound key rtinfo inTable).nonempty
      rw [nodeIpOutput_forwards_iff sound inTable inside msg]
      constructor
      · rintro resolved _ ⟨⟩
        exact resolved
      · intro all
        exact all rtinfo rfl
  -- The lookup of the next-hop is made in the table after the installation, which the route itself
  -- may cover: that is the case of the route found for its own next-hop.
  · rintro router router' route rfl feasible added msg
    have stepped : rtStep net node router.rt (.bgp router route) = .ok router'.rt := by
      simp only [rtStep, added]
    have allowed : RtAllowed net node router.rt (.bgp router route) := rfl
    have sound' := rtStep_sound sound allowed stepped
    rw [nodeIpOutput_forwards_iff sound' (bgpRouterRtAddRoute_inTable added)
      (by simp [RtInfo.entry0, bgpRtInfo]) msg]
    have reachable : (rtFindBest router.rt route.attr.nextHop netRouteAny).isSome := by
      simpa [nextHopReachable, nodeRtLookup] using feasible
    obtain ⟨next, found⟩ := bgpRouterRtAddRoute_covers added reachable
    have points : (bgpRtInfo route.pfx route.attr.nextHop).entry0.deref =
        some ⟨none, route.attr.nextHop⟩ := rfl
    constructor
    · intro resolved
      refine ⟨next, found, ?_⟩
      rcases resolved _ points rfl next found with same | interface
      · exact .inl (congrArg EntryRef.route same).symm
      · exact .inr interface
    · rintro ⟨next', found', cases'⟩ entry points' _ other foundOther
      rw [points, Option.some.injEq] at points'
      subst points'
      rw [found', Option.some.injEq] at foundOther
      subst foundOther
      rcases cases' with rfl | interface
      · exact .inl rfl
      · exact .inr interface

end Tables

/-! ## A node with two gateway-only routes in a row -/

theorem pairRid_injective (a b : Bool) :
    (if a then 0x01000002 else 0x01000001 : NetAddr) = (if b then 0x01000002 else 0x01000001) → a = b := by
  revert a b
  decide

/-- Two routers joined by a router-to-router link. -/
def routerPair : Topology Bool Bool Empty where
  rid b := if b then 0x01000002 else 0x01000001
  ifaces b := [b]
  iface b :=
    { owner := b
      addr := if b then 0x01000001 else 0x01000002
      mask := 32
      short := short32
      connected := true
      type := .rtr
      dest := some (.iface !b)
      enabled := true
      metric := 1 }
  subnetPrefix := Empty.elim
  subnetTransit := Empty.elim
  subnetIfaces := Empty.elim
  dest_matches b dest h := by
    cases h
    cases b <;> decide
  connected_dest b _ := by simp
  iface_mask b h := by simp at h
  rid_injective := pairRid_injective
  ifaces_owner := by decide
  ifaces_sorted := by decide
  subnet_mask s := s.elim
  subnet_injective s := s.elim
  subnet_dest s := s.elim
  subnet_sorted s := s.elim

/-- The prefix `octet.0.0.0/8`. -/
def slash8 (octet : UInt32) : Pfx where
  network := octet <<< 24
  mask := 8
  short := by decide

/-- 10/8 through 20.0.0.1, 20/8 through the given interface and gateway. -/
def gatewayRoutes (oifId gateway : NetAddr) : Except Unit NetRt :=
  [RtOp.add (slash8 10) netAddrAny 0x14000001 0 .static,
    RtOp.add (slash8 20) oifId gateway 0 .static].foldlM (rtStep routerPair false) ∅

theorem gatewayRoutes_reached {oifId gateway : NetAddr} {rt : NetRt}
    (built : gatewayRoutes oifId gateway = .ok rt) : RtReach routerPair false rt := by
  refine Reach.of_foldlM (fun entry member => ?_) built
  obtain ⟨before, op⟩ := entry
  have listed := loopStates_snd member
  simp only [List.mem_cons, List.not_mem_nil, or_false] at listed
  rcases listed with same | same
  · rw [same]
    trivial
  · rw [same]
    trivial

/-- With 10/8 through 20.0.0.1 and 20/8 through 30.0.0.1, a message for 10.0.0.1 is neither sent nor
reported unreachable. -/
theorem gateway_chain_faults :
    ∃ rt, RtReach routerPair false rt ∧
      nodeForward routerPair false rt ⟨0, 0x0a000001⟩ = .error .nullInterface ∧
      ¬ Forwards (nodeForward routerPair false rt ⟨0, 0x0a000001⟩) := by
  have run : okAnd (gatewayRoutes netAddrAny 0x1e000001) (fun rt =>
      decide (nodeForward routerPair false rt ⟨0, 0x0a000001⟩ = .error .nullInterface)) = true := by
    decide +kernel
  obtain ⟨rt, built, faults⟩ := okAnd_iff.mp run
  have faults := of_decide_eq_true faults
  refine ⟨rt, gatewayRoutes_reached built, faults, ?_⟩
  rw [faults]
  rintro (h | ⟨_, _, _, h⟩)
  · cases h
  · cases h

/-- With 20/8 through the interface towards the neighbour, the message leaves there. -/
theorem forwards_through_interface :
    ∃ rt, RtReach routerPair false rt ∧
      Forwards (nodeForward routerPair false rt ⟨0, 0x0a000001⟩) ∧
      ∀ rtinfo, rtFindBest rt 0x0a000001 netRouteAny = some rtinfo → Resolved rt rtinfo.entry0 := by
  have run : okAnd (gatewayRoutes 0x01000002 netAddrAny) (fun rt =>
      decide (nodeForward routerPair false rt ⟨0, 0x0a000001⟩ =
        .ok (.send false 0 ⟨0x01000001, 0x0a000001⟩))) = true := by
    decide +kernel
  obtain ⟨rt, built, sent⟩ := okAnd_iff.mp run
  have forwards : Forwards (nodeForward routerPair false rt ⟨0, 0x0a000001⟩) :=
    .inr ⟨_, _, _, of_decide_eq_true sent⟩
  have reached := gatewayRoutes_reached built
  have resolved := (forwards_iff_resolved _ _ _ reached).2.1 ⟨0, 0x0a000001⟩
  exact ⟨rt, reached, forwards, resolved.mp forwards⟩

end Cbgp.Verified

import Cbgp.Bgp.AsLevel
import Cbgp.Lib.Run

/-! # Links of AS-level topologies

A topology is seen through the type of the link from one domain to another (`linkType`).  It passes
the consistency check exactly when every link has a reverse one of the reversed type (`MutualLinks`), and
the filters and the removal of a domain are described by what they do to `linkType`.
-/

namespace Cbgp.Verified

open Cbgp.Lib Cbgp.Bgp

/-! ## Links as a function -/

/-- The type of the link from one domain to another. -/
def linkType (topo : AsTopo) (a b : Asn) : Option PeerType :=
  (topo.domain a).bind fun domain => (aslevelAsGetLink domain b).map (·.peerType)

/-- Every link has a reverse link of the reversed type. -/
def MutualLinks (topo : AsTopo) : Prop :=
  ∀ a b type, linkType topo a b = some type → linkType topo b a = some (aslevelReverseRelation type)

@[simp] theorem aslevelReverseRelation_reverse (type : PeerType) :
    aslevelReverseRelation (aslevelReverseRelation type) = type := by
  cases type <;> rfl

theorem domain_eq_some {topo : AsTopo} {a : Asn} {d : AsDomain} :
    topo.domain a = some d ↔ d ∈ topo.domains.items ∧ d.asn = a := by
  rw [AsTopo.domain, SortedArray.find_eq_some, AsDomain.key, UInt16.toNat_inj]

theorem aslevelAsGetLink_eq_some {d : AsDomain} {b : Asn} {link : AsLink} :
    aslevelAsGetLink d b = some link ↔ link ∈ d.neighbors.items ∧ link.neighbor = b := by
  rw [aslevelAsGetLink, SortedArray.find_eq_some, AsLink.key, UInt16.toNat_inj]

theorem linkType_eq_some {topo : AsTopo} {a b : Asn} {type : PeerType} :
    linkType topo a b = some type ↔
      ∃ d, topo.domain a = some d ∧ ⟨b, type⟩ ∈ d.neighbors.items := by
  simp only [linkType, Option.bind_eq_some_iff, Option.map_eq_some_iff, aslevelAsGetLink_eq_some]
  constructor
  · rintro ⟨d, found, ⟨neighbor, peerType⟩, ⟨member, rfl⟩, rfl⟩
    exact ⟨d, found, member⟩
  · rintro ⟨d, found, member⟩
    exact ⟨d, found, _, ⟨member, rfl⟩, rfl⟩

/-- A link of a domain of the topology. -/
theorem linkType_of_mem {topo : AsTopo} {a : Asn} {d : AsDomain} {link : AsLink}
    (found : topo.domain a = some d) (member : link ∈ d.neighbors.items) :
    linkType topo a link.neighbor = some link.peerType :=
  linkType_eq_some.mpr ⟨d, found, member⟩

theorem MutualLinks.neighbor {topo : AsTopo} (mutual' : MutualLinks topo) {a : Asn} {d : AsDomain} {link : AsLink}
    (found : topo.domain a = some d) (member : link ∈ d.neighbors.items) :
    ∃ n, topo.domain link.neighbor = some n ∧
      ⟨a, aslevelReverseRelation link.peerType⟩ ∈ n.neighbors.items :=
  linkType_eq_some.mp (mutual' _ _ _ (linkType_of_mem found member))

/-! ## The consistency check -/

theorem checkEach_success {β : Type} {check : β → Except AsLevelFault AsLevelError} {l : List β} :
    checkEach check l = .ok .success ↔ ∀ b ∈ l, check b = .ok .success := by
  induction l with
  | nil => simp [checkEach]
  | cons b l inductionHypothesis =>
    unfold checkEach
    split
    next passed => simp [passed, inductionHypothesis]
    next other =>
      constructor
      · intro passed
        exact absurd passed other
      · intro all
        exact absurd (all b List.mem_cons_self) other

theorem checkLink_success {topo : AsTopo} {d : AsDomain} {link : AsLink} :
    checkLink topo d link = .ok .success ↔
      linkType topo link.neighbor d.asn = some (aslevelReverseRelation link.peerType) := by
  unfold checkLink linkType
  cases topo.domain link.neighbor with
  | none => simp
  | some n =>
    simp only [Option.bind_some]
    cases aslevelAsGetLink n d.asn with
    | none => simp
    | some link2 =>
      have turned : link.peerType = aslevelReverseRelation link2.peerType ↔
          link2.peerType = aslevelReverseRelation link.peerType := by
        constructor <;> intro same <;> rw [same, aslevelReverseRelation_reverse]
      by_cases same : link.peerType = aslevelReverseRelation link2.peerType
      · simp [same]
      · simp [same, turned.not.mp same]

/-- The check passes exactly when the links are mutual. -/
theorem aslevelTopoCheckConsistency_iff {topo : AsTopo} :
    aslevelTopoCheckConsistency topo = .ok .success ↔ MutualLinks topo := by
  simp only [aslevelTopoCheckConsistency, checkEach_success, checkLink_success]
  constructor
  · intro passed a b type typed
    obtain ⟨d, found, member⟩ := linkType_eq_some.mp typed
    obtain ⟨inside, rfl⟩ := domain_eq_some.mp found
    exact passed d inside _ member
  · intro links d inside link member
    exact links _ _ _ (linkType_of_mem (domain_eq_some.mpr ⟨inside, rfl⟩) member)

/-! ## Updates -/

theorem domain_mapDomains (topo : AsTopo) {f : AsDomain → AsDomain} (same : ∀ d, (f d).asn = d.asn)
    (a : Asn) : (topo.mapDomains f same).domain a = (topo.domain a).map f :=
  SortedArray.find_map topo.domains (fun d : AsDomain => congrArg UInt16.toNat (same d)) a.toNat

theorem domain_setDomain (topo : AsTopo) (d : AsDomain) (a : Asn) :
    (topo.setDomain d).domain a =
      if a = d.asn then (topo.domain a).map fun _ => d else topo.domain a := by
  rw [AsTopo.setDomain, domain_mapDomains]
  cases found : topo.domain a with
  | none => simp
  | some old =>
    have key := (domain_eq_some.mp found).2
    simp only [Option.map_some, key]
    split <;> rfl

theorem linkType_filterLinks {topo topo' : AsTopo} {a : Asn} {p : AsLink → Bool}
    (filtered : topo'.domain a = (topo.domain a).map fun d => d.filterLinks p) (b : Asn) :
    linkType topo' a b = (linkType topo a b).filter fun type => p ⟨b, type⟩ := by
  apply Option.ext
  intro type
  rw [Option.filter_eq_some_iff, linkType_eq_some, linkType_eq_some, filtered]
  simp only [Option.map_eq_some_iff]
  constructor
  · rintro ⟨_, ⟨d, found, rfl⟩, member⟩
    obtain ⟨old, kept⟩ := List.mem_filter.mp member
    exact ⟨⟨d, found, old⟩, kept⟩
  · rintro ⟨⟨d, found, old⟩, kept⟩
    exact ⟨_, ⟨d, found, rfl⟩, List.mem_filter.mpr ⟨old, kept⟩⟩

theorem domain_removeDomains (topo : AsTopo) (set : List Asn) (a : Asn) :
    (removeDomains topo set).domain a =
      if a ∈ set then none
      else (topo.domain a).map fun d => d.filterLinks fun link => link.neighbor ∉ set := by
  have filtered : (removeDomains topo set).domain a =
      ((topo.domain a).map fun d => d.filterLinks fun link => link.neighbor ∉ set).filter
        fun d => d.asn ∉ set := by
    have mapped := domain_mapDomains topo
      (show ∀ d : AsDomain, (d.filterLinks fun link => link.neighbor ∉ set).asn = d.asn from
        fun _ => rfl) a
    rw [← mapped]
    exact SortedArray.find_filter _ _ _
  rw [filtered]
  cases found : topo.domain a with
  | none => simp
  | some d =>
    have key := (domain_eq_some.mp found).2
    by_cases removed : a ∈ set
    · simp [Option.filter, key, removed]
    · simp [Option.filter, key, removed]

/-- The links left when the domains of a set are removed. -/
theorem linkType_removeDomains (topo : AsTopo) (set : List Asn) (a b : Asn) :
    linkType (removeDomains topo set) a b =
      if a ∈ set ∨ b ∈ set then none else linkType topo a b := by
  by_cases removed : a ∈ set
  · rw [if_pos (.inl removed), linkType, domain_removeDomains, if_pos removed]
    rfl
  · have kept := domain_removeDomains topo set a
    rw [if_neg removed] at kept
    rw [linkType_filterLinks kept]
    by_cases target : b ∈ set
    · simp [target]
    · simp only [removed, target, not_false_eq_true, decide_true, or_self, if_false]
      cases linkType topo a b <;> rfl

/-- Removing domains keeps the links mutual. -/
theorem MutualLinks.removeDomains {topo : AsTopo} (links : MutualLinks topo) (set : List Asn) :
    MutualLinks (removeDomains topo set) := by
  intro a b type typed
  rw [linkType_removeDomains] at typed ⊢
  split at typed
  · cases typed
  next kept =>
    rw [if_neg fun removed => kept removed.symm]
    exact links a b type typed

/-! ## Removing a domain -/

/-- The reverse links are removed one after the other. -/
theorem removeReverse_loop {topo : AsTopo} {asn : Asn} {links : List AsLink}
    (distinct : links.Pairwise fun l l' => l.neighbor ≠ l'.neighbor)
    (reverse : ∀ link ∈ links, link.neighbor ≠ asn ∧ ∃ type, linkType topo link.neighbor asn = some type) :
    ∃ topo', links.foldlM (removeReverse asn) topo = .ok topo' ∧
      ∀ a b, linkType topo' a b =
        if b = asn ∧ ∃ link ∈ links, link.neighbor = a then none else linkType topo a b := by
  induction links generalizing topo with
  | nil => exact ⟨topo, rfl, fun a b => by simp⟩
  | cons link links inductionHypothesis =>
    obtain ⟨_, type, typed⟩ := reverse link List.mem_cons_self
    obtain ⟨n, found, member⟩ := linkType_eq_some.mp typed
    have nAsn := (domain_eq_some.mp found).2
    have stepped : removeReverse asn topo link =
        .ok (topo.setDomain (n.filterLinks fun l => l.neighbor ≠ asn)) := by
      simp only [removeReverse, found, aslevelAsGetLink_eq_some.mpr ⟨member, rfl⟩]
    -- One turn removes the link back from one neighbour and leaves all other links.
    have middle : ∀ a b, linkType (topo.setDomain (n.filterLinks fun l => l.neighbor ≠ asn)) a b =
        if b = asn ∧ link.neighbor = a then none else linkType topo a b := by
      intro a b
      by_cases same : a = link.neighbor
      · subst same
        have set := domain_setDomain topo (n.filterLinks fun l => l.neighbor ≠ asn) link.neighbor
        rw [AsDomain.filterLinks_asn, if_pos nAsn.symm, found, Option.map_some] at set
        have filtered : (topo.setDomain (n.filterLinks fun l => l.neighbor ≠ asn)).domain link.neighbor =
            (topo.domain link.neighbor).map fun d => d.filterLinks fun l => l.neighbor ≠ asn := by
          rw [set, found, Option.map_some]
        rw [linkType_filterLinks filtered]
        by_cases target : b = asn
        · simp [target]
        · simp only [target, ne_eq, not_false_eq_true, decide_true, false_and, if_false]
          cases linkType topo link.neighbor b <;> rfl
      · have kept := domain_setDomain topo (n.filterLinks fun l => l.neighbor ≠ asn) a
        rw [AsDomain.filterLinks_asn, if_neg fun equal => same (equal.trans nAsn)] at kept
        rw [if_neg fun both => same both.2.symm, linkType, kept]
        rfl
    rw [List.pairwise_cons] at distinct
    -- The neighbours differ, so the links of the turns to come are still there.
    have later : ∀ other ∈ links, other.neighbor ≠ asn ∧ ∃ type,
        linkType (topo.setDomain (n.filterLinks fun l => l.neighbor ≠ asn)) other.neighbor asn =
          some type := by
      intro other member
      obtain ⟨differ, type, typed⟩ := reverse other (List.mem_cons_of_mem _ member)
      refine ⟨differ, type, ?_⟩
      rw [middle, if_neg fun both => distinct.1 other member both.2]
      exact typed
    obtain ⟨topo', looped, types⟩ := inductionHypothesis distinct.2 later
    refine ⟨topo', ?_, fun a b => ?_⟩
    · rw [List.foldlM_cons, stepped]
      exact looped
    · rw [types, middle]
      by_cases target : b = asn
      · by_cases first : link.neighbor = a
        · simp [target, first]
        · simp [target, first]
      · simp [target]

/-- Removing a domain from a topology with mutual links removes its links, at both ends. -/
theorem aslevelTopoRemoveAs_mutual {topo : AsTopo} (links : MutualLinks topo) (asn : Asn) :
    ∃ error topo', aslevelTopoRemoveAs topo asn = .ok (error, topo') ∧ MutualLinks topo' := by
  unfold aslevelTopoRemoveAs
  cases found : topo.domain asn with
  | none => exact ⟨_, _, rfl, links⟩
  | some d =>
    have dAsn := (domain_eq_some.mp found).2
    have distinct : d.neighbors.items.Pairwise fun l l' => l.neighbor ≠ l'.neighbor :=
      d.neighbors.sorted.imp fun less same => less.ne (congrArg UInt16.toNat same)
    have reverse : ∀ link ∈ d.neighbors.items, link.neighbor ≠ asn ∧
        ∃ type, linkType { topo with cachedDomains := (none, none) } link.neighbor asn = some type := by
      intro link member
      exact ⟨dAsn ▸ d.noLoop link member, _, links _ _ _ (linkType_of_mem found member)⟩
    obtain ⟨topo', looped, types⟩ := removeReverse_loop distinct reverse
    refine ⟨.success, { topo' with domains := topo'.domains.erase asn.toNat }, ?_, ?_⟩
    · simp only [looped, bind, Except.bind]
    · -- what is left are the links between other domains
      have left : ∀ a b, linkType { topo' with domains := topo'.domains.erase asn.toNat } a b =
          if a = asn ∨ b = asn then none else linkType topo a b := by
        intro a b
        have erased : AsTopo.domain { topo' with domains := topo'.domains.erase asn.toNat } a =
            if a = asn then none else topo'.domain a := by
          rw [AsTopo.domain, SortedArray.find_erase, AsTopo.domain]
          simp only [UInt16.toNat_inj]
        by_cases source : a = asn
        · rw [linkType, erased, if_pos source, if_pos (.inl source)]
          rfl
        · rw [linkType, erased, if_neg source]
          change linkType topo' a b = _
          rw [types]
          by_cases target : b = asn
          · -- a link to the domain has a reverse link, so it was removed
            subst target
            cases typed : linkType topo a b with
            | none =>
              have none' : linkType { topo with cachedDomains := (none, none) } a b = none := typed
              simp [none']
            | some type =>
              have back := links a b type typed
              obtain ⟨d', found', member⟩ := linkType_eq_some.mp back
              rw [found, Option.some.injEq] at found'
              subst found'
              rw [if_pos ⟨rfl, _, member, rfl⟩]
              simp
          · rw [if_neg fun both => target both.1, if_neg fun either => either.elim source target]
            rfl
      intro a b type typed
      rw [left] at typed ⊢
      split at typed
      · cases typed
      next kept =>
        rw [if_neg fun removed => kept removed.symm]
        exact links a b type typed

/-! ## The filters -/

/-- The domain has a provider. -/
def HasProvider (topo : AsTopo) (a : Asn) : Prop :=
  ∃ b, linkType topo a b = some .provider

theorem aslevelAsNumProviders_pos {topo : AsTopo} {a : Asn} {d : AsDomain}
    (found : topo.domain a = some d) : aslevelAsNumProviders d ≠ 0 ↔ HasProvider topo a := by
  rw [aslevelAsNumProviders, numLinks, ← Nat.pos_iff_ne_zero, List.countP_pos_iff]
  constructor
  · rintro ⟨⟨b, type⟩, member, provider⟩
    refine ⟨b, linkType_eq_some.mpr ⟨d, found, ?_⟩⟩
    rw [← of_decide_eq_true provider]
    exact member
  · rintro ⟨b, typed⟩
    obtain ⟨d', found', member⟩ := linkType_eq_some.mp typed
    rw [found, Option.some.injEq] at found'
    subst found'
    exact ⟨_, member, rfl⟩

/-- The filters other than the peer-to-peer one only choose domains. -/
theorem identify_chooses {filter : AsFilter} (other : filter ≠ .peerToPeer) {topo : AsTopo}
    {asns : List Asn} (known : ∀ a ∈ asns, ∃ d, topo.domain a = some d) (set : List Asn) :
    ∃ set', asns.foldlM (identify filter) (topo, set) = .ok (topo, set') := by
  induction asns generalizing set with
  | nil => exact ⟨set, rfl⟩
  | cons a asns inductionHypothesis =>
    obtain ⟨d, found⟩ := known a List.mem_cons_self
    have chosen : ∃ set', identify filter (topo, set) a = .ok (topo, set') := by
      unfold identify
      simp only [found]
      cases filter with
      | peerToPeer => exact absurd rfl other
      | stubs =>
        dsimp only
        split <;> exact ⟨_, rfl⟩
      | singleHomedStubs =>
        dsimp only
        split <;> exact ⟨_, rfl⟩
      | keepTop =>
        dsimp only
        split <;> exact ⟨_, rfl⟩
    obtain ⟨set', chosen⟩ := chosen
    rw [List.foldlM_cons, chosen]
    exact inductionHypothesis (fun a member => known a (List.mem_cons_of_mem _ member)) set'

/-- The loop of the peer-to-peer filter: it drops the links to peers up to the first neighbor without
providers. -/
theorem dropPeers_spec {topo : AsTopo} {links : List AsLink}
    (sorted : links.Pairwise fun l l' => l.key < l'.key)
    (known : ∀ link ∈ links, ∃ n, topo.domain link.neighbor = some n) :
    ∃ kept, dropPeers topo links = .ok kept ∧ ∀ link, link ∈ kept ↔ link ∈ links ∧
      ¬ (link.peerType = .peer ∧
        ∀ other ∈ links, other.key ≤ link.key → HasProvider topo other.neighbor) := by
  induction links with
  | nil => exact ⟨[], rfl, by simp⟩
  | cons first links inductionHypothesis =>
    rw [List.pairwise_cons] at sorted
    obtain ⟨n, found⟩ := known first List.mem_cons_self
    have providers := aslevelAsNumProviders_pos found
    by_cases top : aslevelAsNumProviders n = 0
    · -- the loop stops here
      have lacking : ¬ HasProvider topo first.neighbor := fun has => providers.mpr has top
      refine ⟨first :: links, by simp only [dropPeers, found, top, if_true], fun link => ?_⟩
      refine ⟨fun member => ⟨member, fun both => lacking (both.2 first List.mem_cons_self ?_)⟩, And.left⟩
      cases member with
      | head => exact Nat.le_refl _
      | tail _ later => exact (sorted.1 link later).le
    · have has : HasProvider topo first.neighbor := providers.mp top
      obtain ⟨kept, dropped, members⟩ := inductionHypothesis sorted.2 fun link member =>
        known link (List.mem_cons_of_mem _ member)
      -- the first neighbor does not stop the loop for the links after it
      have lifted : ∀ link ∈ links, (∀ other ∈ first :: links, other.key ≤ link.key →
          HasProvider topo other.neighbor) ↔
          ∀ other ∈ links, other.key ≤ link.key → HasProvider topo other.neighbor := by
        intro link _
        rw [List.forall_mem_cons]
        exact ⟨And.right, fun rest => ⟨fun _ => has, rest⟩⟩
      have alone : ∀ other ∈ first :: links, other.key ≤ first.key →
          HasProvider topo other.neighbor := by
        intro other member below
        cases member with
        | head => exact has
        | tail _ later => exact absurd (sorted.1 other later) (Nat.not_lt.mpr below)
      by_cases peer : first.peerType = .peer
      · refine ⟨kept, by simp only [dropPeers, found, top, peer, if_true, if_false]; exact dropped,
          fun link => ?_⟩
        rw [members, List.mem_cons]
        constructor
        · rintro ⟨later, stays⟩
          exact ⟨.inr later, fun both => stays ⟨both.1, (lifted link later).mp both.2⟩⟩
        · rintro ⟨rfl | later, stays⟩
          · exact absurd ⟨peer, alone⟩ stays
          · exact ⟨later, fun both => stays ⟨both.1, (lifted link later).mpr both.2⟩⟩
      · refine ⟨first :: kept, by
          simp only [dropPeers, found, top, peer, if_false, dropped]; rfl, fun link => ?_⟩
        rw [List.mem_cons, members, List.mem_cons]
        constructor
        · rintro (rfl | ⟨later, stays⟩)
          · exact ⟨.inl rfl, fun both => peer both.1⟩
          · exact ⟨.inr later, fun both => stays ⟨both.1, (lifted link later).mp both.2⟩⟩
        · rintro ⟨rfl | later, stays⟩
          · exact .inl rfl
          · exact .inr ⟨later, fun both => stays ⟨both.1, (lifted link later).mpr both.2⟩⟩

/-- The peer-to-peer filter drops the link from `a` to `b`: `a` has a provider, and so has every neighbor
of `a` up to `b`. -/
def Dropped (topo : AsTopo) (a b : Asn) : Prop :=
  linkType topo a b = some .peer ∧ HasProvider topo a ∧
    ∀ c type, linkType topo a c = some type → c.toNat ≤ b.toNat → HasProvider topo c

/-- The topology after the peer-to-peer filter has visited some domains. -/
structure Pruned (topo : AsTopo) (visited : List Asn) (topo' : AsTopo) : Prop where
  domains : ∀ a, (∃ d, topo'.domain a = some d) ↔ ∃ d, topo.domain a = some d
  types : ∀ a b type, linkType topo' a b = some type ↔
    linkType topo a b = some type ∧ ¬ (a ∈ visited ∧ Dropped topo a b)

theorem Pruned.hasProvider {topo topo' : AsTopo} {visited : List Asn}
    (pruned : Pruned topo visited topo') (a : Asn) : HasProvider topo' a ↔ HasProvider topo a := by
  unfold HasProvider
  refine exists_congr fun b => ?_
  rw [pruned.types]
  constructor
  · exact And.left
  · intro provider
    refine ⟨provider, fun ⟨_, peer, _⟩ => ?_⟩
    rw [provider] at peer
    cases peer

/-- The visit of one domain. -/
theorem identify_pruned {topo topo' : AsTopo} {visited : List Asn} {a : Asn} (links : MutualLinks topo)
    (pruned : Pruned topo visited topo') (fresh : a ∉ visited) (known : ∃ d, topo.domain a = some d) :
    ∃ topo'', identify .peerToPeer (topo', []) a = .ok (topo'', []) ∧
      Pruned topo (a :: visited) topo'' := by
  obtain ⟨d, found⟩ := (pruned.domains a).mpr known
  have own : ∀ b type, ⟨b, type⟩ ∈ d.neighbors.items ↔ linkType topo a b = some type := by
    intro b type
    have typed := pruned.types a b type
    rw [linkType_eq_some] at typed
    simp only [found, Option.some.injEq, exists_eq_left', fresh, false_and, not_false_eq_true,
      and_true] at typed
    exact typed
  have providers := aslevelAsNumProviders_pos found
  rw [pruned.hasProvider] at providers
  by_cases top : aslevelAsNumProviders d = 0
  · -- the links of a domain without providers stay
    have lacking : ¬ HasProvider topo a := fun has => providers.mpr has top
    refine ⟨topo', by simp only [identify, found, top, if_true], pruned.domains, fun x b type => ?_⟩
    rw [pruned.types, List.mem_cons]
    refine and_congr_right fun _ => not_congr ⟨fun both => ⟨.inr both.1, both.2⟩, ?_⟩
    rintro ⟨rfl | visited, dropped⟩
    · exact absurd dropped.2.1 lacking
    · exact ⟨visited, dropped⟩
  · have has : HasProvider topo a := providers.mp top
    have neighbors : ∀ link ∈ d.neighbors.items, ∃ n, topo'.domain link.neighbor = some n := by
      intro link member
      have back := links a _ _ ((own link.neighbor link.peerType).mp member)
      obtain ⟨n, known, _⟩ := linkType_eq_some.mp back
      exact (pruned.domains _).mpr ⟨n, known⟩
    obtain ⟨kept, dropped, members⟩ := dropPeers_spec d.neighbors.sorted neighbors
    have left : ∀ b type, ⟨b, type⟩ ∈ kept ↔ linkType topo a b = some type ∧ ¬ Dropped topo a b := by
      intro b type
      rw [members, own]
      refine and_congr_right fun typed => not_congr ?_
      rw [Dropped, typed, Option.some.injEq]
      refine and_congr_right fun _ => ?_
      constructor
      · intro all
        refine ⟨has, fun c type typed below => ?_⟩
        exact (pruned.hasProvider c).mp (all ⟨c, type⟩ ((own c type).mpr typed) below)
      · rintro ⟨_, all⟩ other member below
        exact (pruned.hasProvider _).mpr (all other.neighbor other.peerType
          ((own _ _).mp member) below)
    -- a link to a provider is left
    have nonempty : kept ≠ [] := by
      obtain ⟨b, provider⟩ := has
      refine List.ne_nil_of_mem ((left b .provider).mpr ⟨provider, fun dropped => ?_⟩)
      rw [Dropped, provider] at dropped
      cases dropped.1
    refine ⟨topo'.setDomain (d.restrict kept (dropPeers_sublist dropped)), ?_, fun x => ?_,
      fun x b type => ?_⟩
    · simp only [identify, found, top, if_false]
      split
      next fault failed =>
        rw [dropped] at failed
        cases failed
      next same =>
        rw [dropped] at same
        cases same
        rw [if_neg nonempty]
    · rw [domain_setDomain, ← pruned.domains]
      split
      · cases topo'.domain x <;> simp
      · rfl
    · have dAsn := (domain_eq_some.mp found).2
      have set := domain_setDomain topo' (d.restrict kept (dropPeers_sublist dropped)) x
      by_cases same : x = a
      · subst same
        rw [AsDomain.restrict_asn, if_pos dAsn.symm, found, Option.map_some] at set
        rw [linkType_eq_some, set]
        simp only [Option.some.injEq, exists_eq_left', List.mem_cons_self, true_and]
        exact left b type
      · rw [AsDomain.restrict_asn, if_neg fun equal => same (equal.trans dAsn)] at set
        have untouched : linkType (topo'.setDomain (d.restrict kept (dropPeers_sublist dropped))) x b =
            linkType topo' x b := by
          rw [linkType, set]
          rfl
        rw [untouched, pruned.types, List.mem_cons]
        simp only [same, false_or]

theorem identify_loop {topo topo' : AsTopo} {visited asns : List Asn} (links : MutualLinks topo)
    (pruned : Pruned topo visited topo') (distinct : asns.Nodup) (fresh : ∀ a ∈ asns, a ∉ visited)
    (known : ∀ a ∈ asns, ∃ d, topo.domain a = some d) :
    ∃ topo'' visited', asns.foldlM (identify .peerToPeer) (topo', []) = .ok (topo'', []) ∧
      Pruned topo visited' topo'' ∧ ∀ a, a ∈ visited' ↔ a ∈ asns ∨ a ∈ visited := by
  induction asns generalizing topo' visited with
  | nil => exact ⟨topo', visited, rfl, pruned, by simp⟩
  | cons a asns inductionHypothesis =>
    obtain ⟨middle, visit, pruned'⟩ := identify_pruned links pruned (fresh a List.mem_cons_self)
      (known a List.mem_cons_self)
    rw [List.nodup_cons] at distinct
    obtain ⟨topo'', visited', looped, pruned'', seen⟩ := inductionHypothesis pruned' distinct.2
      (fun b member => by
        rw [List.mem_cons, not_or]
        exact ⟨fun same => distinct.1 (same ▸ member), fresh b (List.mem_cons_of_mem _ member)⟩)
      (fun b member => known b (List.mem_cons_of_mem _ member))
    refine ⟨topo'', visited', ?_, pruned'', fun b => ?_⟩
    · rw [List.foldlM_cons, visit]
      exact looped
    · rw [seen, List.mem_cons, List.mem_cons]
      tauto

theorem domain_asns {topo : AsTopo} {a : Asn} :
    a ∈ topo.domains.items.map AsDomain.asn ↔ ∃ d, topo.domain a = some d := by
  simp [domain_eq_some]

/-- What the peer-to-peer filter leaves. -/
theorem aslevelFilterTopo_peerToPeer {topo : AsTopo} (links : MutualLinks topo) :
    ∃ topo', aslevelFilterTopo topo .peerToPeer = .ok topo' ∧ ∀ a b type,
      linkType topo' a b = some type ↔ linkType topo a b = some type ∧ ¬ Dropped topo a b := by
  have distinct : (topo.domains.items.map AsDomain.asn).Nodup := by
    rw [List.Nodup, List.pairwise_map]
    exact topo.domains.sorted.imp fun less same => less.ne (congrArg UInt16.toNat same)
  have start : Pruned topo [] topo := ⟨fun _ => Iff.rfl, fun a b type => by simp⟩
  obtain ⟨topo', visited, looped, pruned, seen⟩ := identify_loop links start distinct (by simp)
    fun a member => domain_asns.mp member
  refine ⟨removeDomains topo' [], ?_, fun a b type => ?_⟩
  · simp only [aslevelFilterTopo, looped, bind, Except.bind]
  · rw [linkType_removeDomains]
    simp only [List.not_mem_nil, or_self, if_false]
    rw [pruned.types]
    refine and_congr_right fun typed => not_congr ⟨And.right, fun dropped => ⟨?_, dropped⟩⟩
    obtain ⟨d, found, _⟩ := linkType_eq_some.mp typed
    exact (seen a).mpr (.inl (domain_asns.mpr ⟨d, found⟩))

/-- The other filters remove domains. -/
theorem aslevelFilterTopo_other {topo : AsTopo} {filter : AsFilter} (other : filter ≠ .peerToPeer) :
    ∃ set, aslevelFilterTopo topo filter = .ok (removeDomains topo set) := by
  have known : ∀ a ∈ topo.domains.items.map AsDomain.asn, ∃ d, topo.domain a = some d :=
    fun _ member => domain_asns.mp member
  obtain ⟨set, chosen⟩ := identify_chooses other known []
  exact ⟨set, by simp only [aslevelFilterTopo, chosen, bind, Except.bind]⟩

/-! ## Runs -/

/-- The operations on a topology. -/
inductive TopoOp where
  | filter (filter : AsFilter)
  | removeAs (asn : Asn)

def topoStep (topo : AsTopo) : TopoOp → Except AsLevelFault AsTopo
  | .filter filter => aslevelFilterTopo topo filter
  | .removeAs asn => (aslevelTopoRemoveAs topo asn).map (·.2)

/-- Where the peer-to-peer filter drops a link, it drops the reverse one too. -/
def DropsAgree (topo : AsTopo) (op : TopoOp) : Prop :=
  op = .filter .peerToPeer → ∀ a b, Dropped topo a b → Dropped topo b a

/-- An operation on a topology with mutual links. -/
theorem topoStep_mutual {topo : AsTopo} (links : MutualLinks topo) {op : TopoOp} (agree : DropsAgree topo op) :
    ∃ topo', topoStep topo op = .ok topo' ∧ MutualLinks topo' := by
  cases op with
  | removeAs asn =>
    obtain ⟨error, topo', removed, links'⟩ := aslevelTopoRemoveAs_mutual links asn
    exact ⟨topo', by simp only [topoStep, removed, Except.map], links'⟩
  | filter filter =>
    by_cases peers : filter = .peerToPeer
    · subst peers
      obtain ⟨topo', filtered, types⟩ := aslevelFilterTopo_peerToPeer links
      refine ⟨topo', filtered, fun a b type typed => ?_⟩
      rw [types] at typed ⊢
      exact ⟨links a b type typed.1, fun dropped => typed.2 (agree rfl b a dropped)⟩
    · obtain ⟨set, filtered⟩ := aslevelFilterTopo_other peers
      exact ⟨_, filtered, links.removeDomains set⟩

/-- In a run in which the peer-to-peer filter drops links at both ends, every topology passes the
consistency check, has no link to a removed domain, and no operation stops the program. -/
theorem links_stay_mutual {topo topo' : AsTopo}
    (start : aslevelTopoCheckConsistency topo = .ok .success)
    (reached : Reach topoStep DropsAgree topo topo') :
    aslevelTopoCheckConsistency topo' = .ok .success ∧
      (∀ d ∈ topo'.domains.items, ∀ link ∈ d.neighbors.items,
        ∃ n ∈ topo'.domains.items, n.asn = link.neighbor) ∧
      ∀ op, DropsAgree topo' op → ∃ topo'', topoStep topo' op = .ok topo'' := by
  have links : MutualLinks topo' := by
    refine reached.invariant (aslevelTopoCheckConsistency_iff.mp start) ?_
    intro s op s' links agree stepped
    obtain ⟨next, stepped', links'⟩ := topoStep_mutual links agree
    rw [stepped, Except.ok.injEq] at stepped'
    exact stepped' ▸ links'
  refine ⟨aslevelTopoCheckConsistency_iff.mpr links, fun d inside link member => ?_,
    fun op agree => ?_⟩
  · obtain ⟨n, found, _⟩ := links.neighbor (domain_eq_some.mpr ⟨inside, rfl⟩) member
    exact ⟨n, domain_eq_some.mp found⟩
  · obtain ⟨topo'', stepped, _⟩ := topoStep_mutual links agree
    exact ⟨topo'', stepped⟩

/-- The peers 2 and 3, with the providers 9 and 8. -/
def levelPeers : AsTopo where
  domains := {
    items := [
      ⟨2, ⟨[⟨3, .peer⟩, ⟨9, .provider⟩], by decide⟩, by decide⟩,
      ⟨3, ⟨[⟨2, .peer⟩, ⟨8, .provider⟩], by decide⟩, by decide⟩,
      ⟨8, ⟨[⟨3, .customer⟩], by decide⟩, by decide⟩,
      ⟨9, ⟨[⟨2, .customer⟩], by decide⟩, by decide⟩]
    sorted := by decide }
  cachedDomains := (none, none)

/-- The peer-to-peer filter drops both ends of the only link between peers. -/
theorem levelPeers_stay_mutual :
    ∃ topo', topoStep levelPeers (.filter .peerToPeer) = .ok topo' ∧
      linkType topo' 2 3 = none ∧ aslevelTopoCheckConsistency topo' = .ok .success := by
  have agree : DropsAgree levelPeers (.filter .peerToPeer) := by
    intro _ a b dropped
    obtain ⟨d, found, member⟩ := linkType_eq_some.mp dropped.1
    obtain ⟨inside, rfl⟩ := domain_eq_some.mp found
    -- the two ends of the link
    have ends : d.asn = 2 ∧ b = 3 ∨ d.asn = 3 ∧ b = 2 := by
      simp only [levelPeers, List.mem_cons, List.not_mem_nil, or_false] at inside
      rcases inside with rfl | rfl | rfl | rfl
      · simpa using member
      · simpa using member
      · simp at member
      · simp at member
    have has : HasProvider levelPeers 2 ∧ HasProvider levelPeers 3 := ⟨⟨9, rfl⟩, ⟨8, rfl⟩⟩
    have neighbors : ∀ c type, (linkType levelPeers 2 c = some type → c = 3 ∨ c = 9) ∧
        (linkType levelPeers 3 c = some type → c = 2 ∨ c = 8) := by
      intro c type
      constructor <;> intro typed <;> obtain ⟨d, found, member⟩ := linkType_eq_some.mp typed <;>
        cases found <;> simp at member <;> tauto
    rcases ends with ⟨source, rfl⟩ | ⟨source, rfl⟩
    · rw [source]
      refine ⟨rfl, has.2, fun c type typed below => ?_⟩
      rcases (neighbors c type).2 typed with rfl | rfl
      · exact has.1
      · exact absurd below (by decide)
    · rw [source]
      refine ⟨rfl, has.1, fun c type typed below => ?_⟩
      rcases (neighbors c type).1 typed with rfl | rfl
      · exact has.2
      · exact absurd below (by decide)
  exact ⟨_, rfl, rfl, (links_stay_mutual (by rfl) (.next .start agree rfl)).1⟩

/-- The peers 2 and 3, with the providers 9 and 1. -/
def lopsidedPeers : AsTopo where
  domains := {
    items := [
      ⟨1, ⟨[⟨3, .customer⟩], by decide⟩, by decide⟩,
      ⟨2, ⟨[⟨3, .peer⟩, ⟨9, .provider⟩], by decide⟩, by decide⟩,
      ⟨3, ⟨[⟨1, .provider⟩, ⟨2, .peer⟩], by decide⟩, by decide⟩,
      ⟨9, ⟨[⟨2, .customer⟩], by decide⟩, by decide⟩]
    sorted := by decide }
  cachedDomains := (none, none)

/-- The visit of 3 stops at its provider 1, so only 2 loses its link: the topology is inconsistent, and
removing 3 stops the program. -/
theorem peers_dropped_at_one_end :
    aslevelTopoCheckConsistency lopsidedPeers = .ok .success ∧
      ∃ topo', topoStep lopsidedPeers (.filter .peerToPeer) = .ok topo' ∧
        aslevelTopoCheckConsistency topo' = .ok .inconsistent ∧
        topoStep topo' (.removeAs 3) = .error .missingReverse := by
  exact ⟨by rfl, _, rfl, by rfl, by rfl⟩

end Cbgp.Verified

import Cbgp.Bgp.RecordRoute

/-! # When a recorded route ends

The walk of `bgp_record_route` keeps no set of visited routers.  It ends because the chain of next-hops
ends or because the path is full, and the path only grows where a hop is recorded: at every hop when
duplicates are preserved, and otherwise where the next router is in another AS.  `Endless` says that
neither happens, and `bgpRecordRoute_returns_iff` that the walk returns in all other cases.
-/

namespace Cbgp.Verified

open Cbgp.Lib Cbgp.Net Cbgp.Bgp

variable {N I S : Type}

section Walk

variable (net : BgpNetwork N I S) (pfx : Pfx) (options : RecordOptions)

/-- The next router of the chain: the one on the node that bears the next-hop. -/
def nextHopRouter (cur : RouterAt N) : Option (RouterAt N) :=
  (recordLookup pfx options cur.router).bind fun route =>
    if (net.topology.nodeHasAddress cur.node route.attr.nextHop).isSome then none
    else net.routerOf route.attr.nextHop

/-- The number of hops that are recorded among the first ones of the chain, if it is that long. -/
def recordedHops : ℕ → RouterAt N → Option ℕ
  | 0, _ => some 0
  | hops + 1, cur =>
    (nextHopRouter net pfx options cur).bind fun next =>
      (recordedHops hops next).map fun recorded =>
        recorded + (recordsAsn options (some cur.router) next.router).toNat

/-- The chain never ends, and too few of its hops are recorded to fill a path. -/
def Endless (start : RouterAt N) : Prop :=
  ∀ hops, ∃ recorded, recordedHops net pfx options hops start = some recorded ∧
    recorded < maxPathSequenceLength

/-- A path of one sequence, or without segments, that holds that many AS numbers. -/
inductive Sequence : Path → ℕ → Prop where
  | empty : Sequence [] 0
  | single {seg : PathSeg} : seg.type = .sequence → Sequence [seg] seg.asns.length

/-- What the current router adds to the path. -/
def due (st : Recording N) : ℕ :=
  (recordsAsn options st.prev st.cur.router).toNat

variable {net pfx options} {st next : Recording N} {path : Path} {asn : Asn} {n : ℕ}

theorem Sequence.le (sequence : Sequence path n) : n ≤ maxPathSequenceLength := by
  cases sequence with
  | empty => exact Nat.zero_le _
  | single _ => exact PathSeg.short _

/-- A number is appended unless the sequence is full. -/
theorem Sequence.append (sequence : Sequence path n) :
    (n < maxPathSequenceLength → ∃ path', pathAppend path asn = some path' ∧ Sequence path' (n + 1)) ∧
      (n = maxPathSequenceLength → pathAppend path asn = none) := by
  cases sequence with
  | empty =>
    refine ⟨fun _ => ⟨[sequenceOf asn], rfl, .single rfl⟩, fun full => ?_⟩
    cases full
  | @single seg type =>
    simp only [pathAppend, type, pathSegmentAdd]
    refine ⟨fun room => ?_, fun full => by simp [full]⟩
    rw [dif_pos room]
    refine ⟨_, rfl, ?_⟩
    have grown : Sequence [(⟨.sequence, seg.asns ++ [asn],
        by simpa using Nat.succ_le_of_lt room⟩ : PathSeg)] (seg.asns ++ [asn]).length := .single rfl
    simpa using grown

/-- The path after the current router has been recorded. -/
theorem Sequence.record (sequence : Sequence st.path n) :
    (n + due options st ≤ maxPathSequenceLength →
      ∃ path, (if recordsAsn options st.prev st.cur.router then pathAppend st.path st.cur.router.asn
        else some st.path) = some path ∧ Sequence path (n + due options st)) ∧
    (maxPathSequenceLength < n + due options st →
      (if recordsAsn options st.prev st.cur.router then pathAppend st.path st.cur.router.asn
        else some st.path) = none) := by
  unfold due
  have bound := sequence.le
  cases recordsAsn options st.prev st.cur.router with
  | true =>
    simp only [if_true, Bool.toNat_true]
    exact ⟨fun room => sequence.append.1 (by omega), fun full => sequence.append.2 (by omega)⟩
  | false =>
    simp only [Bool.false_eq_true, if_false, Bool.toNat_false, Nat.add_zero]
    exact ⟨fun _ => ⟨_, rfl, sequence⟩, fun full => by omega⟩

/-- A turn that goes on goes to the next router of the chain, with the current one recorded. -/
theorem recordTurn_inr (sequence : Sequence st.path n)
    (continues : recordTurn net pfx options st = .inr next) :
    nextHopRouter net pfx options st.cur = some next.cur ∧ next.prev = some st.cur.router ∧
      Sequence next.path (n + due options st) := by
  unfold recordTurn at continues
  cases lookup : recordLookup pfx options st.cur.router with
  | none => simp [lookup] at continues
  | some route =>
    simp only [lookup] at continues
    by_cases room : n + due options st ≤ maxPathSequenceLength
    · obtain ⟨path, recorded, grown⟩ := sequence.record.1 room
      simp only [recorded] at continues
      split at continues
      next => cases continues
      next away =>
        split at continues
        next => cases continues
        next router found =>
          cases continues
          refine ⟨?_, rfl, grown⟩
          rw [nextHopRouter, lookup, Option.bind_some, if_neg away, found]
    · simp only [sequence.record.2 (Nat.not_le.mp room)] at continues
      cases continues

/-- Where the chain goes on and there is room in the path, a turn goes on. -/
theorem recordTurn_goes_on (sequence : Sequence st.path n)
    (room : n + due options st ≤ maxPathSequenceLength) {cur : RouterAt N}
    (chain : nextHopRouter net pfx options st.cur = some cur) :
    ∃ path, recordTurn net pfx options st =
        .inr { cur := cur, prev := some st.cur.router, path := path } ∧
      Sequence path (n + due options st) := by
  obtain ⟨route, lookup, found⟩ := Option.bind_eq_some_iff.mp chain
  obtain ⟨path, recorded, grown⟩ := sequence.record.1 room
  split at found
  next => cases found
  next away =>
    refine ⟨path, ?_, grown⟩
    simp only [recordTurn, lookup, recorded, if_neg away, found]

/-- Where the path is full a turn ends. -/
theorem recordTurn_full (sequence : Sequence st.path n)
    (full : maxPathSequenceLength < n + due options st) :
    ∃ result, recordTurn net pfx options st = .inl result := by
  unfold recordTurn
  cases recordLookup pfx options st.cur.router with
  | none => exact ⟨_, rfl⟩
  | some route =>
    simp only [sequence.record.2 full]
    exact ⟨_, rfl⟩

/-- The walk goes on for ever along an endless chain. -/
theorem recordTurn_endless {start : RouterAt N} (endless : Endless net pfx options start)
    (fuel : ℕ) : bgpRecordRoute net fuel start pfx options = none := by
  -- what is recorded now and later fits in a path
  refine looping_none (fun st => ∃ n, Sequence st.path n ∧ ∀ hops, ∃ recorded,
    recordedHops net pfx options hops st.cur = some recorded ∧
      n + due options st + recorded ≤ maxPathSequenceLength) ?_ ⟨0, .empty, fun hops => ?_⟩ fuel
  · rintro st ⟨n, sequence, goes⟩
    obtain ⟨_, one, _⟩ := goes 1
    obtain ⟨cur, chain, _⟩ := Option.bind_eq_some_iff.mp one
    obtain ⟨_, _, room⟩ := goes 0
    obtain ⟨path, continues, grown⟩ := recordTurn_goes_on sequence (by omega) chain
    refine ⟨_, continues, _, grown, fun hops => ?_⟩
    obtain ⟨recorded, counted, bounded⟩ := goes (hops + 1)
    rw [recordedHops, chain, Option.bind_some] at counted
    obtain ⟨later, counted', rfl⟩ := Option.map_eq_some_iff.mp counted
    refine ⟨later, counted', ?_⟩
    show n + due options st + (recordsAsn options (some st.cur.router) cur.router).toNat + later ≤ _
    omega
  · obtain ⟨recorded, counted, bounded⟩ := endless hops
    refine ⟨recorded, counted, ?_⟩
    show 0 + 1 + recorded ≤ _
    omega

/-- The walk ends where the chain ends or fills the path. -/
theorem looping_ends (hops : ℕ) (sequence : Sequence st.path n)
    (short : ∀ recorded, recordedHops net pfx options hops st.cur = some recorded →
      maxPathSequenceLength < n + due options st + recorded) :
    ∃ fuel result, looping (recordTurn net pfx options) fuel st = some result := by
  induction hops generalizing st n with
  | zero =>
    have full : ∃ result, recordTurn net pfx options st = .inl result :=
      recordTurn_full sequence (short 0 rfl)
    obtain ⟨result, ends⟩ := full
    exact ⟨1, result, looping_inl ends 0⟩
  | succ hops inductionHypothesis =>
    cases turn : recordTurn net pfx options st with
    | inl result => exact ⟨1, result, looping_inl turn 0⟩
    | inr next =>
      obtain ⟨chain, prev, grown⟩ := recordTurn_inr sequence turn
      obtain ⟨fuel, result, ended⟩ := inductionHypothesis grown fun recorded counted => by
        have longer := short _ (by rw [recordedHops, chain, Option.bind_some, counted]; rfl)
        dsimp only at longer
        have added : due options next =
            (recordsAsn options (some st.cur.router) next.cur.router).toNat := by
          rw [due, prev]
        omega
      exact ⟨fuel + 1, result, (looping_inr turn fuel).trans ended⟩

/-- The walk returns, and with one of the results that the function names, unless the chain of
next-hops is endless. -/
theorem bgpRecordRoute_returns_iff (net : BgpNetwork N I S) (start : RouterAt N) (pfx : Pfx)
    (options : RecordOptions) :
    (∃ fuel result path, bgpRecordRoute net fuel start pfx options = some (result, path) ∧
      (result = .success ∨ result = .unreach ∨ result = .tooLong)) ↔
      ¬ Endless net pfx options start := by
  constructor
  · rintro ⟨fuel, result, path, returned, _⟩ endless
    rw [recordTurn_endless endless fuel] at returned
    cases returned
  · intro ends
    obtain ⟨hops, short⟩ := not_forall.mp ends
    have first : due options ({ cur := start, prev := none, path := [] } : Recording N) = 1 := rfl
    have returns : ∃ fuel result, bgpRecordRoute net fuel start pfx options = some result :=
      looping_ends hops .empty fun recorded counted => by
        have long : ¬ recorded < maxPathSequenceLength := fun less => short ⟨_, counted, less⟩
        omega
    obtain ⟨fuel, ⟨result, path⟩, returned⟩ := returns
    refine ⟨fuel, result, path, returned, ?_⟩
    refine looping_result (fun _ => True) (fun result => result.1 = .success ∨
      result.1 = .unreach ∨ result.1 = .tooLong) (fun _ _ _ _ => trivial) ?_ trivial returned
    intro st result _ ended
    unfold recordTurn at ended
    grind

end Walk

/-! ## Two routers that lead to each other -/

theorem twoNodes_rid (a b : Bool) :
    (if a then 0x01000002 else 0x01000001 : NetAddr) = (if b then 0x01000002 else 0x01000001) → a = b := by
  revert a b
  decide

/-- Two nodes without interfaces. -/
def twoNodes : Topology Bool Empty Empty where
  rid b := if b then 0x01000002 else 0x01000001
  ifaces _ := []
  iface i := i.elim
  subnetPrefix s := s.elim
  subnetTransit s := s.elim
  subnetIfaces s := s.elim
  dest_matches i := i.elim
  connected_dest i := i.elim
  iface_mask i := i.elim
  rid_injective := twoNodes_rid
  ifaces_owner _ i := i.elim
  ifaces_sorted _ := .nil
  subnet_mask := noSubnet_mask
  subnet_injective := noSubnet_injective
  subnet_dest s := s.elim
  subnet_sorted s := s.elim

/-- The prefix both have a route for. -/
def pfxTen : Pfx where
  network := 0x0a000000
  mask := 8
  short := short8

/-- A router of the AS 1 whose route has the other router as its next-hop. -/
def routerTowards (b : Bool) : Router :=
  { bgpRouterCreate 1 (twoNodes.rid b) ∅ Env.default with
    locRib := Rib.create.addRoute (routeCreate pfxTen none (twoNodes.rid !b) .igp) }

/-- Both routers on their nodes. -/
def mutualNextHops : BgpNetwork Bool Empty Empty where
  topology := twoNodes
  nodes := ((∅ : Table NetAddr Bool).insert (twoNodes.rid false) false).insert (twoNodes.rid true) true
  bgp b := some (routerTowards b)
  nodes_rid addr node found := by
    by_cases second : addr = twoNodes.rid true
    · rw [second, AList.lookup_insert, Option.some.injEq] at found
      rw [second, found]
    · rw [AList.lookup_insert_ne second] at found
      by_cases first : addr = twoNodes.rid false
      · rw [first, AList.lookup_insert, Option.some.injEq] at found
        rw [first, found]
      · rw [AList.lookup_insert_ne first] at found
        simp at found

/-- The walk between the two never ends. -/
theorem mutualNextHops_endless :
    ¬ ∃ fuel result path, bgpRecordRoute mutualNextHops fuel ⟨false, routerTowards false⟩ pfxTen
      ⟨false, false⟩ = some (result, path) := by
  have step : ∀ b, nextHopRouter mutualNextHops pfxTen ⟨false, false⟩ ⟨b, routerTowards b⟩ =
      some ⟨!b, routerTowards !b⟩ := by
    intro b
    cases b <;> rfl
  have endless : ∀ hops b, recordedHops mutualNextHops pfxTen ⟨false, false⟩ hops
      ⟨b, routerTowards b⟩ = some 0 := by
    intro hops
    induction hops with
    | zero => exact fun _ => rfl
    | succ hops inductionHypothesis =>
      intro b
      rw [recordedHops, step, Option.bind_some, inductionHypothesis]
      rfl
  rintro ⟨fuel, result, path, returned⟩
  rw [recordTurn_endless (fun hops => ⟨0, endless hops false, by decide⟩) fuel] at returned
  cases returned

end Cbgp.Verified

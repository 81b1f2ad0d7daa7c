import Cbgp.Bgp.Types

/-! # Filter predicates

The matchers of `bgp/filter/filter.c`.  A matcher is a block of bytes in which the operands of a
compound are stored one after the other; here it is the tree of the operands, with the size the block
has.  A `NULL` matcher matches everything.
-/

namespace Cbgp.Bgp

open Cbgp.Net

/-! ## Prefix tests -/

/-- `ip_prefix_in_prefix`. -/
def ipPrefixInPrefix (prefix1 prefix2 : Pfx) : Bool :=
  if prefix2.mask = 0 then true
  else if prefix1.mask < prefix2.mask then false
  else prefix1.network >>> (32 - prefix2.mask).toUInt32 = prefix2.network >>> (32 - prefix2.mask).toUInt32

/-- `ip_prefix_ge_prefix`. -/
def ipPrefixGePrefix (prefix1 prefix2 : Pfx) (mask : Nat) : Bool :=
  ipPrefixInPrefix prefix1 prefix2 && decide (mask ≤ prefix1.mask)

/-- `ip_prefix_le_prefix`. -/
def ipPrefixLePrefix (prefix1 prefix2 : Pfx) (mask : Nat) : Bool :=
  ipPrefixInPrefix prefix1 prefix2 && decide (prefix1.mask ≤ mask)

/-! ## Matchers -/

/-- The predicates of the registry other than `any`, each with its parameter. -/
inductive Predicate where
  | commContains (comm : Comm)
  | pathMatches (pos : Nat) -- position in `paPathExpr`
  | nextHopIs (addr : NetAddr)
  | nextHopIn (pfx : Pfx)
  | prefixIs (pfx : Pfx)
  | prefixIn (pfx : Pfx)
  | prefixGe (pfx : Pfx) (len : Nat)
  | prefixLe (pfx : Pfx) (len : Nat)
  deriving DecidableEq

/-- The bytes of the parameter: 4 for an integer, 8 for an `ip_pfx_t`. -/
def Predicate.size : Predicate → Nat
  | commContains _ | pathMatches _ | nextHopIs _ => 4
  | nextHopIn _ | prefixIs _ | prefixIn _ => 8
  | prefixGe _ _ | prefixLe _ _ => 9

/-- `bgp_ft_matcher_t`, by its code. -/
inductive Matcher where
  | any
  | atom (predicate : Predicate)
  | and (matcher1 matcher2 : Matcher)
  | or (matcher1 matcher2 : Matcher)
  | not (matcher : Matcher)
  deriving DecidableEq

/-- `sizeof(bgp_ft_matcher_t)`: the code and the size, packed. -/
def matcherHeader : Nat := 5

/-- `BGP_FT_MATCHER_SIZE_MAX`. -/
def matcherSizeMax : Nat := 255

/-- The field `size`: the bytes of the parameters. -/
def Matcher.size : Matcher → Nat
  | any => 0
  | atom predicate => predicate.size
  | and matcher1 matcher2 | or matcher1 matcher2 =>
    (matcher1.size + matcherHeader) + (matcher2.size + matcherHeader)
  | not matcher => matcher.size + matcherHeader

/-- The bytes of a matcher inside a compound. -/
def Matcher.bytes (matcher : Matcher) : Nat :=
  matcher.size + matcherHeader

/-- `paPathExpr` and `path_match`: the regular expression at a position, as a test of AS-paths. -/
abbrev PathExprs := Nat → Option Path → Bool

/-- A predicate on a route, as `filter_matcher_apply` computes it. -/
def Predicate.apply (pathExprs : PathExprs) (route : Route) : Predicate → Bool
  | commContains comm => commsContains route.attr.comms comm
  | pathMatches pos => pathExprs pos route.attr.path
  | nextHopIs addr => route.attr.nextHop = addr
  | nextHopIn pfx => ipAddressInPrefix route.attr.nextHop pfx
  | prefixIs pfx => ipPrefixEq route.pfx pfx
  | prefixIn pfx => ipPrefixInPrefix route.pfx pfx
  | prefixGe pfx len => ipPrefixGePrefix route.pfx pfx len
  | prefixLe pfx len => ipPrefixLePrefix route.pfx pfx len

/-- `filter_matcher_apply` on a matcher that is not `NULL`. -/
def Matcher.apply (pathExprs : PathExprs) (route : Route) : Matcher → Bool
  | any => true
  | atom predicate => predicate.apply pathExprs route
  | and matcher1 matcher2 => matcher1.apply pathExprs route && matcher2.apply pathExprs route
  | or matcher1 matcher2 => matcher1.apply pathExprs route || matcher2.apply pathExprs route
  | not matcher => !matcher.apply pathExprs route

/-- `filter_matcher_apply`. -/
def filterMatcherApply (pathExprs : PathExprs) (matcher : Option Matcher) (route : Route) : Bool :=
  match matcher with
  | none => true
  | some matcher => matcher.apply pathExprs route

/-! ## Compounds -/

/-- Why parsing a predicate stopped the program. -/
inductive PredicateFault where
  | matcherSize -- the assertion of `_ft_match_compound`
  | nullPointer -- `_ft_match_compound` reads the size of its first operand
  | abort -- the `default` of a switch
  | stackEmpty -- the assertion of `_predicate_parser_pop_state`
  | outOfFuel -- of the model, not of the code
  deriving DecidableEq, Repr

/-- `_ft_match_compound` with two operands. -/
def ftMatchCompound (build : Matcher → Matcher → Matcher) (matcher1 matcher2 : Matcher) :
    Except PredicateFault Matcher :=
  if matcher1.bytes + matcher2.bytes ≤ matcherSizeMax then .ok (build matcher1 matcher2)
  else .error .matcherSize

/-- `filter_match_and`. -/
def filterMatchAnd (matcher1 matcher2 : Option Matcher) : Except PredicateFault (Option Matcher) :=
  match matcher1, matcher2 with
  | none, _ | some .any, _ => .ok matcher2
  | _, none | _, some .any => .ok matcher1
  | some matcher1, some matcher2 => (ftMatchCompound .and matcher1 matcher2).map some

/-- `filter_match_or`. -/
def filterMatchOr (matcher1 matcher2 : Option Matcher) : Except PredicateFault (Option Matcher) :=
  match matcher1, matcher2 with
  | none, _ | some .any, _ | _, none | _, some .any => .ok none
  | some matcher1, some matcher2 => (ftMatchCompound .or matcher1 matcher2).map some

/-- `filter_match_not`: a negation is taken off, anything else becomes the operand of one; there is no
test for `NULL`. -/
def filterMatchNot (matcher : Option Matcher) : Except PredicateFault (Option Matcher) :=
  match matcher with
  | none => .error .nullPointer
  | some (.not inner) => .ok (some inner)
  | some matcher =>
    if matcher.bytes ≤ matcherSizeMax then .ok (some (.not matcher)) else .error .matcherSize

end Cbgp.Bgp

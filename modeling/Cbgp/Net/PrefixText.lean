import Cbgp.Lib.Strtoul
import Cbgp.Net.Prefix

/-! # Addresses, prefixes and destinations as text

The printer and the parsers of `net/prefix.c`.  A parser returns what it read and the end of it, or nothing
where the source returns -1.
-/

namespace Cbgp.Net

open Cbgp.Lib

/-! ## Printing -/

/-- The four octets of an address. -/
def octets (addr : NetAddr) : List ℕ :=
  [(addr >>> 24).toNat, ((addr >>> 16) &&& 255).toNat, ((addr >>> 8) &&& 255).toNat, (addr &&& 255).toNat]

/-- `"%u.%u.%u.%u/%u"`. -/
def prefixText (p : Pfx) : List Char :=
  ['.'].intercalate ((octets p.network).map (Nat.toDigits 10)) ++ '/' :: Nat.toDigits 10 p.mask

/-- `ip_address_dump`. -/
def ipAddressDump (addr : NetAddr) : List Char :=
  ['.'].intercalate ((octets addr).map (Nat.toDigits 10))

/-- `ip_prefix_dump`. -/
def ipPrefixDump (p : Pfx) : List Char := prefixText p

/-- `ip_prefix_to_string`: the text, unless `snprintf` had to cut it to the size of the buffer. -/
def ipPrefixToString (p : Pfx) (strSize : ℕ) : Option (List Char) :=
  if (prefixText p).length ≥ strSize then none else some (prefixText p)

/-! ## Parsing -/

/-- The loop of `ip_string_to_address`, with `numDigits` octets to come. -/
def readAddress (addr : NetAddr) (str endPtr : List Char) : ℕ → Option (NetAddr × List Char)
  | 0 => some (addr, endPtr)
  | numDigits + 1 =>
    let digit := (strtoul 10 str).1
    let endPtr := (strtoul 10 str).2
    if str = endPtr ∨ digit > 255 ∨ (numDigits > 0 ∧ endPtr.head? ≠ some '.') then none
    else readAddress ((addr <<< 8) + digit.toUInt32) endPtr.tail endPtr numDigits

/-- `ip_string_to_address`. -/
def ipStringToAddress (str : List Char) : Option (NetAddr × List Char) := readAddress 0 str str 4

/-- Where the first loop of `ip_string_to_prefix` stands. -/
structure PrefixReader where
  network : NetAddr
  str : List Char
  endPtr : List Char
  numDigits : ℕ

/-- The first loop of `ip_string_to_prefix`. -/
def readOctets (network : NetAddr) (str endPtr : List Char) : ℕ → Option PrefixReader
  -- the counter of the source wraps here, but what follows fails before it is used
  | 0 => some ⟨network, str, endPtr, 0⟩
  | numDigits + 1 =>
    let digit := (strtoul 10 str).1
    let endPtr := (strtoul 10 str).2
    if digit > 255 ∨ str = endPtr then none
    else if endPtr.head? = some '/' then some ⟨(network <<< 8) + digit.toUInt32, endPtr.tail, endPtr, numDigits⟩
    else if endPtr.head? ≠ some '.' then none
    else readOctets ((network <<< 8) + digit.toUInt32) endPtr.tail endPtr numDigits

/-- The second loop of `ip_string_to_prefix`: the octets that are missing are zero. -/
def shiftMissing (network : NetAddr) : ℕ → NetAddr
  | 0 => network
  | numDigits + 1 => shiftMissing (network <<< 8) numDigits

/-- `ip_string_to_prefix`. -/
def ipStringToPrefix (str : List Char) : Option (Pfx × List Char) :=
  match readOctets 0 str str 4 with
  | none => none
  | some reader =>
    if reader.endPtr.head? ≠ some '/' then none
    else
      -- nothing checks that the mask has a digit
      let mask := strtoul 10 reader.str
      if h : mask.1 > 32 then none
      else some (⟨shiftMissing reader.network reader.numDigits, mask.1, Nat.le_of_not_lt h⟩, mask.2)

/-- `str2address`. -/
def str2address (str : List Char) : Option NetAddr :=
  match ipStringToAddress str with
  | some (addr, []) => some addr
  | _ => none

/-- `str2prefix`. -/
def str2prefix (str : List Char) : Option Pfx :=
  match ipStringToPrefix str with
  | some (p, []) => some p
  | _ => none

/-- `ip_dest_t`, when it is valid. -/
inductive IpDest where
  | any
  | pfx (p : Pfx)
  | address (addr : NetAddr)
  deriving DecidableEq

/-- `ip_string_to_dest`. -/
def ipStringToDest (str : List Char) : Option IpDest :=
  if str = ['*'] then some .any
  else
    match ipStringToPrefix str with
    | some (p, []) => some (.pfx p)
    | _ =>
      match ipStringToAddress str with
      | some (addr, []) => some (.address addr)
      | _ => none

end Cbgp.Net

import Mathlib.Data.List.Basic

/-!
Internet addresses and the blocks they are registered in, as Python's `ipaddress` module
classifies them. An address belongs to a block when the two agree on its leading bits.
-/
namespace Library.IpAddresses

inductive IpAddress
  | v4 (address : BitVec 32)
  | v6 (address : BitVec 128)
  deriving DecidableEq

structure Block (w : ℕ) where
  base : BitVec w
  leading : ℕ

def Block.contains {w : ℕ} (block : Block w) (address : BitVec w) : Bool :=
  address >>> (w - block.leading) == block.base >>> (w - block.leading)

def ipv4 (a b c d : BitVec 8) : BitVec 32 := a ++ b ++ c ++ d

/-- The first groups of an address; the others are zero. -/
def ipv6 (groups : List (BitVec 16)) : BitVec 128 :=
  BitVec.ofNat 128
    ((List.range 8).foldl (fun n i => 65536 * n + (groups.getD i 0).toNat) 0)

def private4 : List (Block 32) :=
  [⟨ipv4 0 0 0 0, 8⟩, ⟨ipv4 10 0 0 0, 8⟩, ⟨ipv4 127 0 0 0, 8⟩, ⟨ipv4 169 254 0 0, 16⟩,
    ⟨ipv4 172 16 0 0, 12⟩, ⟨ipv4 192 0 0 0, 24⟩, ⟨ipv4 192 0 0 170, 31⟩, ⟨ipv4 192 0 2 0, 24⟩,
    ⟨ipv4 192 168 0 0, 16⟩, ⟨ipv4 198 18 0 0, 15⟩, ⟨ipv4 198 51 100 0, 24⟩,
    ⟨ipv4 203 0 113 0, 24⟩, ⟨ipv4 240 0 0 0, 4⟩, ⟨ipv4 255 255 255 255, 32⟩]

def privateExceptions4 : List (Block 32) := [⟨ipv4 192 0 0 9, 32⟩, ⟨ipv4 192 0 0 10, 32⟩]

def shared4 : Block 32 := ⟨ipv4 100 64 0 0, 10⟩

def loopback4 : Block 32 := ⟨ipv4 127 0 0 0, 8⟩

def linkLocal4 : Block 32 := ⟨ipv4 169 254 0 0, 16⟩

def multicast4 : Block 32 := ⟨ipv4 224 0 0 0, 4⟩

def reserved4 : Block 32 := ⟨ipv4 240 0 0 0, 4⟩

def private6 : List (Block 128) :=
  [⟨ipv6 [0, 0, 0, 0, 0, 0, 0, 1], 128⟩, ⟨ipv6 [], 128⟩, ⟨ipv6 [0, 0, 0, 0, 0, 0xffff], 96⟩,
    ⟨ipv6 [0x64, 0xff9b, 1], 48⟩, ⟨ipv6 [0x100], 64⟩, ⟨ipv6 [0x2001], 23⟩,
    ⟨ipv6 [0x2001, 0xdb8], 32⟩, ⟨ipv6 [0x2002], 16⟩, ⟨ipv6 [0xfc00], 7⟩, ⟨ipv6 [0xfe80], 10⟩]

def privateExceptions6 : List (Block 128) :=
  [⟨ipv6 [0x2001, 1, 0, 0, 0, 0, 0, 1], 128⟩, ⟨ipv6 [0x2001, 1, 0, 0, 0, 0, 0, 2], 128⟩,
    ⟨ipv6 [0x2001, 3], 32⟩, ⟨ipv6 [0x2001, 4, 0x112], 48⟩, ⟨ipv6 [0x2001, 0x20], 28⟩,
    ⟨ipv6 [0x2001, 0x30], 28⟩]

def loopback6 : Block 128 := ⟨ipv6 [0, 0, 0, 0, 0, 0, 0, 1], 128⟩

def linkLocal6 : Block 128 := ⟨ipv6 [0xfe80], 10⟩

def multicast6 : Block 128 := ⟨ipv6 [0xff00], 8⟩

def reserved6 : List (Block 128) :=
  [⟨ipv6 [], 8⟩, ⟨ipv6 [0x100], 8⟩, ⟨ipv6 [0x200], 7⟩, ⟨ipv6 [0x400], 6⟩, ⟨ipv6 [0x800], 5⟩,
    ⟨ipv6 [0x1000], 4⟩, ⟨ipv6 [0x4000], 3⟩, ⟨ipv6 [0x6000], 3⟩, ⟨ipv6 [0x8000], 3⟩,
    ⟨ipv6 [0xa000], 3⟩, ⟨ipv6 [0xc000], 3⟩, ⟨ipv6 [0xe000], 4⟩, ⟨ipv6 [0xf000], 5⟩,
    ⟨ipv6 [0xf800], 6⟩, ⟨ipv6 [0xfe00], 9⟩]

def inAny {w : ℕ} (blocks : List (Block w)) (address : BitVec w) : Bool :=
  blocks.any fun block => block.contains address

/-- The address of version 4 that is embedded in the block `::ffff:0:0/96`. -/
def ipv4Mapped (address : BitVec 128) : Option (BitVec 32) :=
  if address >>> 32 = 0xffff then some (address.setWidth 32) else none

def isPrivate4 (address : BitVec 32) : Bool :=
  inAny private4 address && !inAny privateExceptions4 address

/-- Embedded addresses are as private as they are by themselves. -/
def isPrivate : IpAddress → Bool
  | .v4 a => isPrivate4 a
  | .v6 a =>
    match ipv4Mapped a with
    | some mapped => isPrivate4 mapped
    | none => inAny private6 a && !inAny privateExceptions6 a

def isGlobal : IpAddress → Bool
  | .v4 a => !shared4.contains a && !isPrivate4 a
  | .v6 a => !isPrivate (.v6 a)

def isLoopback : IpAddress → Bool
  | .v4 a => loopback4.contains a
  | .v6 a => loopback6.contains a

def isLinkLocal : IpAddress → Bool
  | .v4 a => linkLocal4.contains a
  | .v6 a => linkLocal6.contains a

def isMulticast : IpAddress → Bool
  | .v4 a => multicast4.contains a
  | .v6 a => multicast6.contains a

def isReserved : IpAddress → Bool
  | .v4 a => reserved4.contains a
  | .v6 a => inAny reserved6 a

end Library.IpAddresses

import Rtpkit.Struct

namespace Rtpkit

/-- Exactly `n` bytes. -/
abbrev FixedBytes (n : Nat) : Type := { bytes : Bytes // bytes.length = n }

/-- An object of `ipaddress.IPv4Address` or `ipaddress.IPv6Address`. -/
inductive IpAddress
  | v4 (packed : FixedBytes 4)
  | v6 (packed : FixedBytes 16)
  deriving DecidableEq

namespace IpAddress

def version : IpAddress → Nat
  | v4 _ => 4
  | v6 _ => 6

def packed : IpAddress → Bytes
  | v4 packed => packed.1
  | v6 packed => packed.1

@[simp] theorem version_v4 (packed : FixedBytes 4) : (v4 packed).version = 4 := rfl

@[simp] theorem version_v6 (packed : FixedBytes 16) : (v6 packed).version = 6 := rfl

end IpAddress

/-- What the code uses of the module `ipaddress`: the texts that the two classes accept, the
texts of `str`, and `repr` of a text for a message. -/
structure IpAddressModule where
  ipv4OfText : String → Option (FixedBytes 4)
  ipv6OfText : String → Option (FixedBytes 16)
  ipv4Text : FixedBytes 4 → String
  ipv6Text : FixedBytes 16 → String
  repr : String → String

namespace IpAddressModule

variable (lib : IpAddressModule)

/-- `ip_address` tries the two classes one after the other. -/
def ipAddress (address : String) : Option IpAddress :=
  match lib.ipv4OfText address with
  | some packed => some (.v4 packed)
  | none => (lib.ipv6OfText address).map IpAddress.v6

/-- `str` of an address. -/
def text : IpAddress → String
  | .v4 packed => lib.ipv4Text packed
  | .v6 packed => lib.ipv6Text packed

/-- `IPv4Address(address).packed` -/
def ipv4Packed (address : String) : Except Error Bytes :=
  match lib.ipv4OfText address with
  | some packed => .ok packed.1
  | none => .error .addressValueError

/-- `IPv6Address(address).packed` -/
def ipv6Packed (address : String) : Except Error Bytes :=
  match lib.ipv6OfText address with
  | some packed => .ok packed.1
  | none => .error .addressValueError

/-- `str(IPv4Address(packed))` -/
def ipv4Str (packed : Bytes) : Except Error String :=
  if h : packed.length = 4 then .ok (lib.ipv4Text ⟨packed, h⟩) else .error .addressValueError

/-- `str(IPv6Address(packed))` -/
def ipv6Str (packed : Bytes) : Except Error String :=
  if h : packed.length = 16 then .ok (lib.ipv6Text ⟨packed, h⟩) else .error .addressValueError

/-- The texts that `str` gives back as they are. -/
def Canonical (address : String) : Prop :=
  ∃ ip, lib.ipAddress address = some ip ∧ lib.text ip = address

variable {lib}

theorem Canonical.text_eq {address : String} {ip : IpAddress} (h : lib.Canonical address)
    (hip : lib.ipAddress address = some ip) : lib.text ip = address := by
  obtain ⟨found, hfound, htext⟩ := h
  rw [hip] at hfound
  cases hfound
  exact htext

end IpAddressModule

/-- A few addresses with the texts that `ipaddress` reads and writes for them. -/
def sampleIpv4 : List (String × FixedBytes 4) :=
  [("0.0.0.0", ⟨[0, 0, 0, 0], rfl⟩), ("10.0.0.1", ⟨[10, 0, 0, 1], rfl⟩),
    ("10.0.0.2", ⟨[10, 0, 0, 2], rfl⟩)]

def sampleHost (last : UInt8) : FixedBytes 16 :=
  ⟨[0x20, 0x01, 0x0d, 0xb8, 0, 0, 0, 0, 0, 0, 0, 0, 0, 0, 0, last], rfl⟩

def sampleIpv6 : List (String × FixedBytes 16) :=
  [("2001:db8::1", sampleHost 1), ("2001:db8::2", sampleHost 2)]

/-- The module on the sample addresses, to evaluate definitions with. -/
def sampleAddresses : IpAddressModule where
  ipv4OfText address := (sampleIpv4.find? fun entry => entry.1 = address).map Prod.snd
  ipv6OfText address := (sampleIpv6.find? fun entry => entry.1 = address).map Prod.snd
  ipv4Text packed := ((sampleIpv4.find? fun entry => entry.2 = packed).map Prod.fst).getD ""
  ipv6Text packed := ((sampleIpv6.find? fun entry => entry.2 = packed).map Prod.fst).getD ""
  repr address := s!"'{address}'"

end Rtpkit

import Qwertycoin.Crypto

/-
# Probe targets

A service endpoint is described by a signed descriptor, which names an address or a host.  The
descriptor is validated when it is received; the probe then hands the host to an HTTP client, which
resolves it and connects to the first address of the answer.
-/

namespace Qwertycoin

open Bytes

/-! ## Addresses -/

/-- `boost::asio::ip::address_v4` -/
structure AddressV4 where
  a : UInt8
  b : UInt8
  c : UInt8
  d : UInt8
deriving DecidableEq

/-- `boost::asio::ip::address_v6` -/
structure AddressV6 where
  bytes : Block 16
  scopeId : ℕ
deriving DecidableEq

/-- `boost::asio::ip::address` -/
inductive IpAddress
  | v4 (address : AddressV4)
  | v6 (address : AddressV6)
deriving DecidableEq

namespace AddressV4

def isUnspecified (x : AddressV4) : Bool := x.a = 0 && x.b = 0 && x.c = 0 && x.d = 0

def isLoopback (x : AddressV4) : Bool := x.a = 127

def isMulticast (x : AddressV4) : Bool := 224 ≤ x.a && x.a ≤ 239

end AddressV4

namespace AddressV6

/-- The byte at an index. -/
def byte (x : AddressV6) (i : ℕ) : UInt8 := x.bytes.data.getD i 0

/-- The bytes from `first` up to `last` are zero. -/
def zeros (x : AddressV6) (first last : ℕ) : Bool :=
  (List.range' first (last - first)).all fun i => x.byte i = 0

/-- The IPv4 address in the four bytes from an index on. -/
def v4At (x : AddressV6) (i : ℕ) : AddressV4 :=
  ⟨x.byte i, x.byte (i + 1), x.byte (i + 2), x.byte (i + 3)⟩

def isUnspecified (x : AddressV6) : Bool := x.zeros 0 16

def isLoopback (x : AddressV6) : Bool := x.zeros 0 15 && x.byte 15 = 1

def isMulticast (x : AddressV6) : Bool := x.byte 0 = 0xff

def isLinkLocal (x : AddressV6) : Bool := x.byte 0 = 0xfe && x.byte 1 &&& 0xc0 = 0x80

def isSiteLocal (x : AddressV6) : Bool := x.byte 0 = 0xfe && x.byte 1 &&& 0xc0 = 0xc0

def isV4Mapped (x : AddressV6) : Bool := x.zeros 0 10 && x.byte 10 = 0xff && x.byte 11 = 0xff

end AddressV6

/-- `prohibited_v4` -/
def prohibitedV4 (x : AddressV4) : Bool :=
  x.isUnspecified || x.isLoopback || x.isMulticast || x.a = 0 || x.a = 10 || x.a = 127 ||
    (x.a = 100 && 64 ≤ x.b && x.b ≤ 127) || (x.a = 169 && x.b = 254) ||
    (x.a = 172 && 16 ≤ x.b && x.b ≤ 31) || (x.a = 192 && x.b = 0 && x.c = 0) ||
    (x.a = 192 && x.b = 88 && x.c = 99) || (x.a = 192 && x.b = 168) ||
    (x.a = 198 && (x.b = 18 || x.b = 19)) || (x.a = 198 && x.b = 51 && x.c = 100) ||
    (x.a = 203 && x.b = 0 && x.c = 113) || 224 ≤ x.a

/-- The ranges of `prohibited_v6`, for an address that is not mapped. -/
def prohibitedRangeV6 (x : AddressV6) : Bool :=
  let discardOnly := x.byte 0 = 0x01 && x.byte 1 = 0x00 && x.zeros 2 8
  let benchmarking := x.byte 0 = 0x20 && x.byte 1 = 0x01 && x.byte 2 = 0x00 && x.byte 3 = 0x02 &&
    x.byte 4 = 0x00 && x.byte 5 = 0x00
  x.isUnspecified || x.isLoopback || x.isMulticast || x.isLinkLocal || x.isSiteLocal ||
    x.byte 0 &&& 0xfe = 0xfc ||
    (x.byte 0 = 0x20 && x.byte 1 = 0x01 && x.byte 2 = 0x0d && x.byte 3 = 0xb8) ||
    discardOnly || benchmarking

/-- `prohibited_v6` -/
def prohibitedV6 (x : AddressV6) : Bool :=
  if x.isV4Mapped then prohibitedV4 (x.v4At 12) else prohibitedRangeV6 x

/-! ## Descriptors -/

/-- `endpoint_transport_v2`; the wire can carry values that no enumerator has. -/
inductive EndpointTransportV2
  | tcpIpv4
  | tcpIpv6
  | dns
  | unknown (code : UInt8)
deriving DecidableEq

def EndpointTransportV2.code : EndpointTransportV2 → UInt8
  | tcpIpv4 => 1
  | tcpIpv6 => 2
  | dns => 3
  | unknown code => code

structure EndpointDescriptorV2 where
  version : UInt8
  servicePublicKey : PublicKey
  transport : EndpointTransportV2
  host : List UInt8
  port : UInt16
  serviceKind : UInt8
  serviceVersion : UInt8
  sequence : UInt64
  expiryEpoch : UInt64
  signature : Signature
deriving DecidableEq

/-- `resource_status_v2`, as far as the modelled functions return it. -/
inductive ResourceStatusV2
  | accepted
  | idempotentDuplicate
  | invalidConfiguration
  | invalidDescriptor
  | invalidSignature
  | noncanonicalHost
  | prohibitedAddress
  | requestTooLarge
  | relayItemExpired
  | relayQueueFull
  | relayItemConflict
deriving DecidableEq

/-- How addresses are read and written by `boost::asio::ip`. -/
structure AddressText where
  makeAddress : List UInt8 → Option IpAddress
  toText : IpAddress → List UInt8

def hashEndpointDescriptorV2 (cr : Crypto) (net : Scope) (descriptor : EndpointDescriptorV2) :
    Hash :=
  cr.cnFastHash (ascii "QWC_EPOSE_ENDPOINT_V2" ++ net.bytes ++ [descriptor.version] ++
    descriptor.servicePublicKey.data ++ [descriptor.transport.code] ++
    u64 (UInt64.ofNat descriptor.host.length) ++ descriptor.host ++ u16 descriptor.port ++
    [descriptor.serviceKind, descriptor.serviceVersion] ++ u64 descriptor.sequence ++
    u64 descriptor.expiryEpoch)

/-- The loop of `canonical_dns`, from the length of the current label and the byte before. -/
def canonicalLabels : List UInt8 → ℕ → UInt8 → Bool
  | [], label, previous => 0 < label && label ≤ 63 && previous ≠ 0x2d
  | byte :: bytes, label, previous =>
    if byte = 0x2e then
      if label = 0 || 63 < label || previous = 0x2d then false
      else canonicalLabels bytes 0 byte
    else if !((0x61 ≤ byte && byte ≤ 0x7a) || (0x30 ≤ byte && byte ≤ 0x39) || byte = 0x2d) then
      false
    else if (label = 0 && byte = 0x2d) || 63 ≤ label then false
    else canonicalLabels bytes (label + 1) byte

/-- `canonical_dns` -/
def canonicalDns (host : List UInt8) : Bool :=
  if host = [] || 253 < host.length || host.head? = some 0x2e || host.getLast? = some 0x2e ||
      !host.contains 0x2e then false
  else canonicalLabels host 0 0

/-- `public_probe_address_v2` -/
def publicProbeAddressV2 (text : AddressText) (host : List UInt8) : Bool :=
  match text.makeAddress host with
  | none => false
  | some (.v4 address) => !prohibitedV4 address
  | some (.v6 address) => !prohibitedV6 address

/-- Whether the text of an address is of the kind a transport asks for. -/
def transportMatches (transport : EndpointTransportV2) : IpAddress → Bool
  | .v4 _ => transport ≠ .tcpIpv6
  | .v6 _ => transport ≠ .tcpIpv4

/-- The last check of a descriptor. -/
def signatureStatus (cr : Crypto) (net : Scope) (descriptor : EndpointDescriptorV2) :
    ResourceStatusV2 :=
  if !cr.checkSignature (hashEndpointDescriptorV2 cr net descriptor)
      descriptor.servicePublicKey descriptor.signature then .invalidSignature
  else .accepted

/-- The checks of a host that has to be an address, and then of the signature. -/
def literalStatus (cr : Crypto) (text : AddressText) (net : Scope)
    (descriptor : EndpointDescriptorV2) : ResourceStatusV2 :=
  match text.makeAddress descriptor.host with
  | none => .noncanonicalHost
  | some parsed =>
    if text.toText parsed ≠ descriptor.host || !transportMatches descriptor.transport parsed then
      .noncanonicalHost
    else if !publicProbeAddressV2 text descriptor.host then .prohibitedAddress
    else signatureStatus cr net descriptor

def validateEndpointDescriptorV2 (cr : Crypto) (text : AddressText) (net : Scope)
    (descriptor : EndpointDescriptorV2) : ResourceStatusV2 :=
  if !net.valid || descriptor.version ≠ 1 || !cr.validKey descriptor.servicePublicKey ||
      descriptor.port = 0 || descriptor.serviceKind = 0 || descriptor.serviceVersion = 0 then
    .invalidDescriptor
  else
    match descriptor.transport with
    | .unknown _ => .invalidDescriptor
    | .dns =>
      if (text.makeAddress descriptor.host).isSome || !canonicalDns descriptor.host then
        .noncanonicalHost
      else signatureStatus cr net descriptor
    | .tcpIpv4 => literalStatus cr text net descriptor
    | .tcpIpv6 => literalStatus cr text net descriptor

/-! ## The connection -/

/-- What the system resolves hosts to, for each protocol.  The text of an address stands for that
address; that of a mapped address may be resolved as the IPv4 address it maps. -/
structure Resolver (text : AddressText) where
  v4 : List UInt8 → List AddressV4
  v6 : List UInt8 → List AddressV6
  numeric_v4 : ∀ {host address}, text.makeAddress host = some (.v4 address) → v4 host = [address]
  numeric_v6 : ∀ {host address}, text.makeAddress host = some (.v6 address) →
    v4 host = [] ∧ v6 host = [address] ∨
      address.isV4Mapped = true ∧ v4 host = [address.v4At 12]

/-- The endpoints that `direct_connect` gets for a host: IPv6 is tried when IPv4 gives none. -/
def Resolver.resolved {text : AddressText} (resolver : Resolver text) (host : List UInt8) :
    List IpAddress :=
  if resolver.v4 host = [] then (resolver.v6 host).map .v6 else (resolver.v4 host).map .v4

/-- The address `request_epose_service_response` lets its client connect to: the host of the
endpoint is handed to the client, which takes the first endpoint it gets. -/
def requestTarget {text : AddressText} (resolver : Resolver text)
    (endpoint : EndpointDescriptorV2) : Option IpAddress :=
  (resolver.resolved endpoint.host).head?

/-! ## What a public target is -/

/-- The IPv4 addresses an IPv6 address embeds: as a compatible address, by 6to4 and by NAT64. -/
def AddressV6.embedded (x : AddressV6) : List AddressV4 :=
  (if x.zeros 0 12 then [x.v4At 12] else []) ++
    (if x.byte 0 = 0x20 && x.byte 1 = 0x02 then [x.v4At 2] else []) ++
    if x.byte 0 = 0x00 && x.byte 1 = 0x64 && x.byte 2 = 0xff && x.byte 3 = 0x9b && x.zeros 4 12
    then [x.v4At 12] else []

/-- An address that hides an IPv4 address: a mapped one, or one that embeds a prohibited one. -/
def IpAddress.hidesV4 : IpAddress → Bool
  | v4 _ => false
  | v6 address => address.isV4Mapped || address.embedded.any prohibitedV4

/-- An address that may be probed. -/
def IpAddress.isPublic : IpAddress → Bool
  | v4 address => !prohibitedV4 address
  | v6 address => !(v6 address).hidesV4 && !prohibitedRangeV6 address

/-- What is asked of a probe: it connects to public addresses only, and not at all when a name
resolves to an address that is not. -/
structure ProbesPublicly {text : AddressText} (resolver : Resolver text)
    (endpoint : EndpointDescriptorV2) : Prop where
  target : ∀ address, requestTarget resolver endpoint = some address → address.isPublic = true
  rebinding : endpoint.transport = .dns →
    (∃ address ∈ resolver.resolved endpoint.host, address.isPublic = false) →
    requestTarget resolver endpoint = none

section Probe

variable {cr : Crypto} {text : AddressText} {net : Scope} {endpoint : EndpointDescriptorV2}

/-- The host of an accepted descriptor without a name is an address that is not prohibited. -/
lemma exists_address_of_accepted (h : validateEndpointDescriptorV2 cr text net endpoint = .accepted)
    (hdns : endpoint.transport ≠ .dns) :
    ∃ address, text.makeAddress endpoint.host = some address ∧
      publicProbeAddressV2 text endpoint.host = true := by
  have hliteral : literalStatus cr text net endpoint = .accepted := by
    unfold validateEndpointDescriptorV2 at h
    split at h
    · cases h
    cases htransport : endpoint.transport with
    | dns => exact absurd htransport hdns
    | unknown code =>
      rw [htransport] at h
      cases h
    | _ =>
      rw [htransport] at h
      exact h
  unfold literalStatus at hliteral
  split at hliteral
  · cases hliteral
  rename_i parsed hparsed
  split_ifs at hliteral with _ hpublic
  exact ⟨parsed, hparsed, by simpa using hpublic⟩

/-- What such a host is resolved to is public, unless it hides an IPv4 address. -/
lemma Resolver.isPublic_of_accepted (resolver : Resolver text)
    (h : validateEndpointDescriptorV2 cr text net endpoint = .accepted)
    (hdns : endpoint.transport ≠ .dns) :
    ∃ address, resolver.resolved endpoint.host = [address] ∧
      (address.isPublic = true ↔ address.hidesV4 = false) := by
  obtain ⟨parsed, hparsed, hpublic⟩ := exists_address_of_accepted h hdns
  simp only [publicProbeAddressV2, hparsed] at hpublic
  cases parsed with
  | v4 address =>
    refine ⟨.v4 address, ?_, ?_⟩
    · simp [Resolver.resolved, resolver.numeric_v4 hparsed]
    · simpa [IpAddress.isPublic, IpAddress.hidesV4] using hpublic
  | v6 address =>
    obtain ⟨hv4, hv6⟩ | ⟨hmapped, hv4⟩ := resolver.numeric_v6 hparsed
    · refine ⟨.v6 address, by simp [Resolver.resolved, hv4, hv6], ?_⟩
      cases hmapped : address.isV4Mapped with
      | true => simp [IpAddress.isPublic, IpAddress.hidesV4, hmapped]
      | false =>
        simp only [prohibitedV6, hmapped, Bool.false_eq_true, if_false, Bool.not_eq_true'] at hpublic
        simp [IpAddress.isPublic, hpublic]
    · refine ⟨.v4 (address.v4At 12), by simp [Resolver.resolved, hv4], ?_⟩
      simpa [prohibitedV6, hmapped, IpAddress.isPublic, IpAddress.hidesV4] using hpublic

end Probe

/-! ### Concrete probes -/

/-- Texts of a public IPv4 address and of the 6to4 address of 10.0.0.1. -/
def AddressText.sample : AddressText :=
  let table : List (List UInt8 × IpAddress) :=
    [(ascii "8.8.8.8", .v4 ⟨8, 8, 8, 8⟩),
      (ascii "2002:a00:1::", .v6 ⟨⟨[0x20, 0x02, 10, 0, 0, 1] ++ List.replicate 10 0, rfl⟩, 0⟩)]
  { makeAddress host := (table.find? (·.1 = host)).map (·.2)
    toText address := ((table.find? (·.2 = address)).map (·.1)).getD [] }

/-- A resolver that gives one answer to every name. -/
def Resolver.answering (text : AddressText) (answer : AddressV4) : Resolver text where
  v4 host :=
    match text.makeAddress host with
    | some (.v4 address) => [address]
    | some (.v6 _) => []
    | none => [answer]
  v6 host :=
    match text.makeAddress host with
    | some (.v6 address) => [address]
    | _ => []
  numeric_v4 h := by rw [h]
  numeric_v6 h := .inl (by rw [h]; exact ⟨rfl, rfl⟩)

/-- A signed endpoint. -/
def EndpointDescriptorV2.sample (transport : EndpointTransportV2) (host : String) :
    EndpointDescriptorV2 :=
  let endpoint : EndpointDescriptorV2 :=
    { version := 1, servicePublicKey := sampleKey 3, transport, host := ascii host, port := 8080
      serviceKind := 1, serviceVersion := 1, sequence := 0, expiryEpoch := 9
      signature := Block.zero 64 }
  { endpoint with
    signature := Crypto.sample.generateSignature
      (hashEndpointDescriptorV2 .sample .sample endpoint) (sampleKey 3) (sampleKey 3) }

end Qwertycoin

import Qwertycoin.Probe

/-
# The gossip of endpoints

Signed endpoint descriptors travel in batches.  A node decodes a batch, drops what no canonical
record names, and puts the rest into a bounded cache; what it put there it passes on.  A batch is
worked off on a copy of the cache, which replaces the cache only when every blob was decoded.
-/

namespace Qwertycoin

open Bytes

/-! ## The codec -/

/-- The cast of a byte to `endpoint_transport_v2`. -/
def EndpointTransportV2.ofCode (code : UInt8) : EndpointTransportV2 :=
  if code = 1 then tcpIpv4
  else if code = 2 then tcpIpv6
  else if code = 3 then dns
  else unknown code

namespace EndpointDescriptorV2

/-- The bytes of a descriptor. -/
def bytes (descriptor : EndpointDescriptorV2) : List UInt8 :=
  descriptor.version :: (descriptor.servicePublicKey.data ++ (descriptor.transport.code ::
    (u16 (UInt16.ofNat descriptor.host.length) ++ (descriptor.host ++ (u16 descriptor.port ++
      (descriptor.serviceKind :: descriptor.serviceVersion :: (u64 descriptor.sequence ++
        (u64 descriptor.expiryEpoch ++ descriptor.signature.data))))))))

/-- The reads of `decode_endpoint_descriptor_v2`. -/
def reader : Reader EndpointDescriptorV2 := do
  let version ← Reader.byte
  let servicePublicKey ← Reader.block 32
  let transport ← Reader.byte
  let hostSize ← Reader.u16
  let host ← Reader.block hostSize.toNat
  let port ← Reader.u16
  let serviceKind ← Reader.byte
  let serviceVersion ← Reader.byte
  let sequence ← Reader.u64
  let expiryEpoch ← Reader.u64
  let signature ← Reader.block 64
  return { version, servicePublicKey, transport := .ofCode transport, host := host.data, port,
           serviceKind, serviceVersion, sequence, expiryEpoch, signature }

end EndpointDescriptorV2

/-- `encode_endpoint_descriptor_v2`; `accepted` is the success of an `Except`. -/
def encodeEndpointDescriptorV2 (cr : Crypto) (text : AddressText) (net : Scope)
    (descriptor : EndpointDescriptorV2) : Except ResourceStatusV2 (List UInt8) :=
  match validateEndpointDescriptorV2 cr text net descriptor with
  | .accepted =>
    if 65535 < descriptor.host.length then .error .invalidDescriptor else .ok descriptor.bytes
  | status => .error status

/-- `decode_endpoint_descriptor_v2` -/
def decodeEndpointDescriptorV2 (cr : Crypto) (text : AddressText) (net : Scope)
    (blob : List UInt8) : Except ResourceStatusV2 EndpointDescriptorV2 :=
  match EndpointDescriptorV2.reader.run blob with
  | some (next, []) =>
    match validateEndpointDescriptorV2 cr text net next with
    | .accepted => .ok next
    | status => .error status
  | _ => .error .invalidDescriptor

/-! ## The cache -/

/-- `endpoint_descriptor_cache_v2::entry` -/
structure EndpointEntryV2 where
  descriptorHash : Hash
  descriptor : EndpointDescriptorV2
deriving DecidableEq

structure EndpointDescriptorCacheV2 where
  maxEntries : ℕ
  maxFutureEpochs : UInt64
  entries : List EndpointEntryV2 := []
deriving DecidableEq

namespace EndpointDescriptorCacheV2

/-- `prune` -/
def prune (cache : EndpointDescriptorCacheV2) (currentEpoch : UInt64) :
    EndpointDescriptorCacheV2 :=
  { cache with
    entries := cache.entries.filter fun entry => !(entry.descriptor.expiryEpoch < currentEpoch) }

/-- `admit` -/
def admitDescriptor (cr : Crypto) (text : AddressText) (cache : EndpointDescriptorCacheV2)
    (net : Scope) (currentEpoch : UInt64) (descriptor : EndpointDescriptorV2) :
    ResourceStatusV2 × EndpointDescriptorCacheV2 :=
  if cache.maxEntries = 0 then (.invalidConfiguration, cache)
  else
    match validateEndpointDescriptorV2 cr text net descriptor with
    | .accepted =>
      if descriptor.expiryEpoch < currentEpoch then (.relayItemExpired, cache)
      else if cache.maxFutureEpochs < descriptor.expiryEpoch - currentEpoch then
        (.invalidDescriptor, cache)
      else
        let descriptorHash := hashEndpointDescriptorV2 cr net descriptor
        if cache.entries.any fun entry => entry.descriptorHash = descriptorHash then
          (.idempotentDuplicate, cache)
        else
          let pruned := cache.prune currentEpoch
          if pruned.maxEntries ≤ pruned.entries.length then (.relayQueueFull, pruned)
          else
            (.accepted, { pruned with
              entries := pruned.entries ++ [⟨descriptorHash, descriptor⟩] })
    | status => (status, cache)

/-- `find` -/
def find (cache : EndpointDescriptorCacheV2) (descriptorHash : Hash) (currentEpoch : UInt64) :
    Option EndpointDescriptorV2 :=
  (cache.entries.find? fun entry =>
    entry.descriptorHash = descriptorHash && currentEpoch ≤ entry.descriptor.expiryEpoch).map
      (·.descriptor)

end EndpointDescriptorCacheV2

/-- `EPOSE_ENDPOINT_DESCRIPTOR_MAX_BLOB_SIZE_V2` -/
def eposeEndpointDescriptorMaxBlobSizeV2 : ℕ := 512

/-- `EPOSE_ENDPOINT_RELAY_MAX_BATCH_V2` -/
def eposeEndpointRelayMaxBatchV2 : ℕ := 16

/-- One pass of the loop of `admit_endpoint_relay_batch_v2`, over the staged cache and the blobs
accepted so far. -/
def relayEndpoint (cr : Crypto) (text : AddressText) (net : Scope) (currentEpoch : UInt64)
    (canonicalDescriptorHashes : List Hash)
    (state : EndpointDescriptorCacheV2 × List (List UInt8)) (blob : List UInt8) :
    Except ResourceStatusV2 (EndpointDescriptorCacheV2 × List (List UInt8)) :=
  if blob = [] || eposeEndpointDescriptorMaxBlobSizeV2 < blob.length then .error .requestTooLarge
  else
    match decodeEndpointDescriptorV2 cr text net blob with
    | .error status => .error status
    | .ok descriptor =>
      if !canonicalDescriptorHashes.contains (hashEndpointDescriptorV2 cr net descriptor) then
        .ok state
      else
        match state.1.admitDescriptor cr text net currentEpoch descriptor with
        | (.accepted, staged) => .ok (staged, state.2 ++ [blob])
        | (.idempotentDuplicate, staged) | (.relayItemExpired, staged)
        | (.relayQueueFull, staged) => .ok (staged, state.2)
        | (status, _) => .error status

/-- `admit_endpoint_relay_batch_v2`: the status, the cache and the blobs to pass on. -/
def admitEndpointRelayBatchV2 (cr : Crypto) (text : AddressText) (net : Scope)
    (currentEpoch : UInt64) (descriptorBlobs : List (List UInt8))
    (canonicalDescriptorHashes : List Hash) (cache : EndpointDescriptorCacheV2) :
    ResourceStatusV2 × EndpointDescriptorCacheV2 × List (List UInt8) :=
  if eposeEndpointRelayMaxBatchV2 < descriptorBlobs.length then (.requestTooLarge, cache, [])
  else
    match descriptorBlobs.foldlM
        (relayEndpoint cr text net currentEpoch canonicalDescriptorHashes) (cache, []) with
    | .error status => (status, cache, [])
    | .ok (staged, accepted) => (.accepted, staged, accepted)

/-! ## Round trips -/

section Codec

variable {cr : Crypto} {text : AddressText} {net : Scope} {descriptor : EndpointDescriptorV2}
  {blob : List UInt8}

lemma EndpointTransportV2.code_ofCode (code : UInt8) : (ofCode code).code = code := by
  unfold ofCode
  split_ifs with h₁ h₂ h₃
  · exact h₁.symm
  · exact h₂.symm
  · exact h₃.symm
  · rfl

lemma EndpointTransportV2.ofCode_code {transport : EndpointTransportV2}
    (h : ∀ code, transport ≠ unknown code) : ofCode transport.code = transport := by
  cases transport with
  | unknown code => exact absurd rfl (h code)
  | _ => rfl

lemma transport_of_accepted (h : validateEndpointDescriptorV2 cr text net descriptor = .accepted)
    (code : UInt8) : descriptor.transport ≠ .unknown code := by
  intro hunknown
  unfold validateEndpointDescriptorV2 at h
  rw [hunknown] at h
  split at h <;> cases h

/-- The host of a valid descriptor is short: a name by its check, an address because it is what
the library writes for it. -/
lemma length_host_of_accepted (hshort : ∀ address, (text.toText address).length ≤ 65535)
    (h : validateEndpointDescriptorV2 cr text net descriptor = .accepted) :
    descriptor.host.length ≤ 65535 := by
  have hliteral : literalStatus cr text net descriptor = .accepted →
      descriptor.host.length ≤ 65535 := by
    intro h
    unfold literalStatus at h
    split at h
    · cases h
    rename_i parsed hparsed
    split_ifs at h with hchecks
    rw [Bool.or_eq_true, decide_eq_true_eq, not_or, not_not] at hchecks
    rw [← hchecks.1]
    exact hshort parsed
  unfold validateEndpointDescriptorV2 at h
  split at h
  · cases h
  cases htransport : descriptor.transport with
  | unknown code =>
    rw [htransport] at h
    cases h
  | dns =>
    rw [htransport] at h
    dsimp only at h
    split_ifs at h with hchecks
    rw [Bool.or_eq_true, not_or, Bool.not_eq_true', Bool.not_eq_false] at hchecks
    have hdns := hchecks.2
    unfold canonicalDns at hdns
    split_ifs at hdns with hlength
    simp only [Bool.or_eq_true, decide_eq_true_eq, not_or] at hlength
    omega
  | _ =>
    rw [htransport] at h
    exact hliteral h

lemma reader_bytes (htransport : ∀ code, descriptor.transport ≠ .unknown code)
    (hhost : descriptor.host.length ≤ 65535) :
    EndpointDescriptorV2.reader.run descriptor.bytes = some (descriptor, []) := by
  obtain ⟨size, host, hsize, hdata⟩ : ∃ (size : UInt16) (host : Block size.toNat),
      UInt16.ofNat descriptor.host.length = size ∧ host.data = descriptor.host :=
    ⟨_, ⟨descriptor.host, (UInt16.toNat_ofNat_of_lt' (by show _ < 65536; omega)).symm⟩, rfl, rfl⟩
  have hsignature : (Reader.block 64).run descriptor.signature.data =
      some (descriptor.signature, []) := by
    have hrun := Reader.run_block_append descriptor.signature []
    rwa [List.append_nil] at hrun
  rw [EndpointDescriptorV2.reader, EndpointDescriptorV2.bytes, Reader.run_bind_byte,
    Reader.run_bind_block, Reader.run_bind_byte, Reader.run_bind_u16, hsize, ← hdata,
    Reader.run_bind_block, Reader.run_bind_u16, Reader.run_bind_byte, Reader.run_bind_byte,
    Reader.run_bind_u64, Reader.run_bind_u64, StateT.run_bind, hsignature]
  rw [EndpointTransportV2.ofCode_code htransport, hdata]
  rfl

lemma eq_bytes_of_reader (h : EndpointDescriptorV2.reader.run blob = some (descriptor, [])) :
    descriptor.bytes = blob := by
  rw [EndpointDescriptorV2.reader] at h
  obtain ⟨version, _, h₁, h⟩ := Reader.of_run_bind_byte h
  obtain ⟨key, _, h₂, h⟩ := Reader.of_run_bind_block h
  obtain ⟨transport, _, h₃, h⟩ := Reader.of_run_bind_byte h
  obtain ⟨size, _, h₄, h⟩ := Reader.of_run_bind_u16 h
  obtain ⟨host, _, h₅, h⟩ := Reader.of_run_bind_block h
  obtain ⟨port, _, h₆, h⟩ := Reader.of_run_bind_u16 h
  obtain ⟨kind, _, h₇, h⟩ := Reader.of_run_bind_byte h
  obtain ⟨serviceVersion, _, h₈, h⟩ := Reader.of_run_bind_byte h
  obtain ⟨sequence, _, h₉, h⟩ := Reader.of_run_bind_u64 h
  obtain ⟨expiry, _, h₁₀, h⟩ := Reader.of_run_bind_u64 h
  obtain ⟨signature, _, h₁₁, h⟩ := Reader.of_run_bind_block h
  obtain ⟨rfl, rfl⟩ := Prod.mk.inj (Option.some.inj h)
  rw [EndpointDescriptorV2.bytes, EndpointTransportV2.code_ofCode, host.length_data,
    UInt16.ofNat_toNat, h₁, h₂, h₃, h₄, h₅, h₆, h₇, h₈, h₉, h₁₀, h₁₁, List.append_nil]

lemma encodeEndpointDescriptorV2_eq_ok (hshort : ∀ address, (text.toText address).length ≤ 65535)
    (h : validateEndpointDescriptorV2 cr text net descriptor = .accepted) :
    encodeEndpointDescriptorV2 cr text net descriptor = .ok descriptor.bytes := by
  rw [encodeEndpointDescriptorV2, h]
  exact if_neg (Nat.not_lt.mpr (length_host_of_accepted hshort h))

lemma decodeEndpointDescriptorV2_eq_ok_iff :
    decodeEndpointDescriptorV2 cr text net blob = .ok descriptor ↔
      EndpointDescriptorV2.reader.run blob = some (descriptor, []) ∧
        validateEndpointDescriptorV2 cr text net descriptor = .accepted := by
  unfold decodeEndpointDescriptorV2
  constructor
  · intro h
    split at h
    · rename_i next hread
      split at h
      · rename_i hvalid
        obtain rfl := Except.ok.inj h
        exact ⟨hread, hvalid⟩
      · cases h
    · cases h
  · rintro ⟨hread, hvalid⟩
    simp only [hread, hvalid]

end Codec

/-! ## One admission -/

namespace EndpointDescriptorCacheV2

variable {cr : Crypto} {text : AddressText} {net : Scope} {currentEpoch : UInt64}
  {descriptor : EndpointDescriptorV2} {cache staged : EndpointDescriptorCacheV2}

/-- The cache with one more entry, after the expired ones are gone. -/
def insert (cr : Crypto) (cache : EndpointDescriptorCacheV2) (net : Scope) (currentEpoch : UInt64)
    (descriptor : EndpointDescriptorV2) : EndpointDescriptorCacheV2 :=
  { cache with
    entries := (cache.prune currentEpoch).entries ++
      [⟨hashEndpointDescriptorV2 cr net descriptor, descriptor⟩] }

/-- A descriptor that is inserted. -/
structure Inserts (cr : Crypto) (text : AddressText) (cache : EndpointDescriptorCacheV2)
    (net : Scope) (currentEpoch : UInt64) (descriptor : EndpointDescriptorV2) : Prop where
  valid : validateEndpointDescriptorV2 cr text net descriptor = .accepted
  current : currentEpoch ≤ descriptor.expiryEpoch
  absent : hashEndpointDescriptorV2 cr net descriptor ∉ cache.entries.map (·.descriptorHash)
  room : (cache.prune currentEpoch).entries.length < cache.maxEntries

lemma admit_cases (cr : Crypto) (text : AddressText) (cache : EndpointDescriptorCacheV2)
    (net : Scope) (currentEpoch : UInt64) (descriptor : EndpointDescriptorV2) :
    (∃ status, status ≠ .accepted ∧
      (cache.admitDescriptor cr text net currentEpoch descriptor = (status, cache) ∨
        cache.admitDescriptor cr text net currentEpoch descriptor =
          (status, cache.prune currentEpoch))) ∨
    cache.Inserts cr text net currentEpoch descriptor ∧
      cache.admitDescriptor cr text net currentEpoch descriptor =
        (.accepted, cache.insert cr net currentEpoch descriptor) := by
  unfold admitDescriptor
  split
  · exact .inl ⟨.invalidConfiguration, nofun, .inl rfl⟩
  split
  · rename_i hvalid
    split
    · exact .inl ⟨.relayItemExpired, nofun, .inl rfl⟩
    rename_i hexpired
    split
    · exact .inl ⟨.invalidDescriptor, nofun, .inl rfl⟩
    dsimp only
    split
    · exact .inl ⟨.idempotentDuplicate, nofun, .inl rfl⟩
    rename_i habsent
    split
    · exact .inl ⟨.relayQueueFull, nofun, .inr rfl⟩
    rename_i hroom
    refine .inr ⟨⟨hvalid, UInt64.not_lt.mp hexpired, ?_, Nat.not_le.mp hroom⟩, rfl⟩
    rw [List.mem_map]
    rintro ⟨entry, hmem, heq⟩
    exact habsent (List.any_eq_true.mpr ⟨entry, hmem, decide_eq_true heq⟩)
  · rename_i hstatus
    exact .inl ⟨_, hstatus, .inl rfl⟩

/-- The entries of a cache. -/
structure WellFormed (cr : Crypto) (text : AddressText) (scopes : Set Scope)
    (cache : EndpointDescriptorCacheV2) : Prop where
  distinct : (cache.entries.map (·.descriptorHash)).Nodup
  hashes : ∀ entry ∈ cache.entries, ∃ net ∈ scopes,
    validateEndpointDescriptorV2 cr text net entry.descriptor = .accepted ∧
      entry.descriptorHash = hashEndpointDescriptorV2 cr net entry.descriptor
  bounded : cache.entries.length ≤ cache.maxEntries

variable {scopes : Set Scope}

lemma WellFormed.prune (h : cache.WellFormed cr text scopes) (currentEpoch : UInt64) :
    (cache.prune currentEpoch).WellFormed cr text scopes where
  distinct := h.distinct.sublist (List.filter_sublist.map _)
  hashes entry hentry := h.hashes entry (List.mem_of_mem_filter hentry)
  bounded := (List.length_filter_le _ _).trans h.bounded

lemma WellFormed.insert (h : cache.WellFormed cr text scopes) (hnet : net ∈ scopes)
    (hinserts : cache.Inserts cr text net currentEpoch descriptor) :
    (cache.insert cr net currentEpoch descriptor).WellFormed cr text scopes where
  distinct := by
    have hdistinct := (h.prune currentEpoch).distinct
    have hsublist : (cache.prune currentEpoch).entries.Sublist cache.entries := List.filter_sublist
    rw [EndpointDescriptorCacheV2.insert, List.map_append, List.map_singleton]
    refine hdistinct.append (List.nodup_singleton _) ?_
    rw [List.disjoint_singleton]
    exact fun hmem => hinserts.absent ((hsublist.map _).subset hmem)
  hashes entry hentry := by
    rw [EndpointDescriptorCacheV2.insert, List.mem_append, List.mem_singleton] at hentry
    rcases hentry with hentry | rfl
    · exact (h.prune currentEpoch).hashes entry hentry
    · exact ⟨net, hnet, hinserts.valid, rfl⟩
  bounded := by
    rw [EndpointDescriptorCacheV2.insert, List.length_append, List.length_singleton]
    exact hinserts.room

lemma WellFormed.admitDescriptor (h : cache.WellFormed cr text scopes) (hnet : net ∈ scopes)
    (currentEpoch : UInt64) (descriptor : EndpointDescriptorV2) :
    (cache.admitDescriptor cr text net currentEpoch descriptor).2.WellFormed cr text scopes := by
  obtain ⟨status, -, heq | heq⟩ | ⟨hinserts, heq⟩ :=
    admit_cases cr text cache net currentEpoch descriptor
  · rw [heq]
    exact h
  · rw [heq]
    exact h.prune currentEpoch
  · rw [heq]
    exact h.insert hnet hinserts

end EndpointDescriptorCacheV2

/-! ## Batches -/

section Batch

open EndpointDescriptorCacheV2

variable {cr : Crypto} {text : AddressText} {net : Scope} {currentEpoch : UInt64}
  {canonicalDescriptorHashes : List Hash} {cache : EndpointDescriptorCacheV2}
  {kept kept' : List EndpointEntryV2} {blob : List UInt8} {blobs : List (List UInt8)}
  {state state' : EndpointDescriptorCacheV2 × List (List UInt8)}

/-- The entry that was inserted for a blob that is passed on. -/
structure Passed (cr : Crypto) (text : AddressText) (net : Scope) (currentEpoch : UInt64)
    (canonicalDescriptorHashes : List Hash) (kept : List EndpointEntryV2) (blob : List UInt8)
    (entry : EndpointEntryV2) : Prop where
  decoded : decodeEndpointDescriptorV2 cr text net blob = .ok entry.descriptor
  hash : entry.descriptorHash = hashEndpointDescriptorV2 cr net entry.descriptor
  canonical : entry.descriptorHash ∈ canonicalDescriptorHashes
  current : currentEpoch ≤ entry.descriptor.expiryEpoch
  fresh : entry.descriptorHash ∉ kept.map (·.descriptorHash)

/-- A staged cache: what it keeps of the cache, expired entries apart, and one new entry for each
blob that is passed on. -/
def Staged (cr : Crypto) (text : AddressText) (net : Scope) (currentEpoch : UInt64)
    (canonicalDescriptorHashes : List Hash) (cache : EndpointDescriptorCacheV2)
    (state : EndpointDescriptorCacheV2 × List (List UInt8)) : Prop :=
  ∃ kept new, state.1 = { cache with entries := kept ++ new } ∧
    (kept = cache.entries ∨ kept = (cache.prune currentEpoch).entries) ∧
    List.Forall₂ (Passed cr text net currentEpoch canonicalDescriptorHashes kept) state.2 new

lemma Passed.of_subset {entry : EndpointEntryV2} (hsubset : kept' ⊆ kept)
    (h : Passed cr text net currentEpoch canonicalDescriptorHashes kept blob entry) :
    Passed cr text net currentEpoch canonicalDescriptorHashes kept' blob entry :=
  { h with fresh := fun hmem => h.fresh (List.map_subset _ hsubset hmem) }

lemma filter_passed {new : List EndpointEntryV2}
    (h : List.Forall₂ (Passed cr text net currentEpoch canonicalDescriptorHashes kept) blobs new) :
    new.filter (fun entry => !(entry.descriptor.expiryEpoch < currentEpoch)) = new := by
  induction h with
  | nil => rfl
  | cons hpassed _ ih => rw [List.filter_cons_of_pos (by simpa using hpassed.current), ih]

lemma Staged.prune (h : Staged cr text net currentEpoch canonicalDescriptorHashes cache state) :
    ∃ new, (state.1.prune currentEpoch) =
        { cache with entries := (cache.prune currentEpoch).entries ++ new } ∧
      List.Forall₂ (Passed cr text net currentEpoch canonicalDescriptorHashes
        (cache.prune currentEpoch).entries) state.2 new := by
  obtain ⟨kept, new, hstate, hkept, hnew⟩ := h
  have hprune : kept.filter (fun entry => !(entry.descriptor.expiryEpoch < currentEpoch)) =
      (cache.prune currentEpoch).entries := by
    rcases hkept with rfl | rfl
    · rfl
    · simp only [EndpointDescriptorCacheV2.prune, List.filter_filter, Bool.and_self]
  refine ⟨new, ?_, hnew.imp fun _ _ => Passed.of_subset ?_⟩
  · rw [EndpointDescriptorCacheV2.prune, hstate, List.filter_append, hprune, filter_passed hnew]
  · rw [← hprune]
    exact List.filter_subset_self _

lemma relayEndpoint_cases (h : relayEndpoint cr text net currentEpoch canonicalDescriptorHashes
      state blob = .ok state') :
    state' = state ∨ state' = (state.1.prune currentEpoch, state.2) ∨
      ∃ descriptor, decodeEndpointDescriptorV2 cr text net blob = .ok descriptor ∧
        hashEndpointDescriptorV2 cr net descriptor ∈ canonicalDescriptorHashes ∧
        state.1.Inserts cr text net currentEpoch descriptor ∧
        state' = (state.1.insert cr net currentEpoch descriptor, state.2 ++ [blob]) := by
  unfold relayEndpoint at h
  split at h
  · cases h
  split at h
  · cases h
  rename_i descriptor hdecode
  split at h
  · exact .inl (Except.ok.inj h).symm
  rename_i hcanonical
  rw [Bool.not_eq_true', Bool.not_eq_false, List.contains_iff_mem] at hcanonical
  obtain ⟨status, hstatus, heq | heq⟩ | ⟨hinserts, heq⟩ :=
    admit_cases cr text state.1 net currentEpoch descriptor
  · rw [heq] at h
    cases status with
    | accepted => exact absurd rfl hstatus
    | idempotentDuplicate | relayItemExpired | relayQueueFull =>
      exact .inl (Except.ok.inj h).symm
    | _ => cases h
  · rw [heq] at h
    cases status with
    | accepted => exact absurd rfl hstatus
    | idempotentDuplicate | relayItemExpired | relayQueueFull =>
      exact .inr (.inl (Except.ok.inj h).symm)
    | _ => cases h
  · rw [heq] at h
    exact .inr (.inr ⟨descriptor, hdecode, hcanonical, hinserts, (Except.ok.inj h).symm⟩)

lemma Staged.relay (h : Staged cr text net currentEpoch canonicalDescriptorHashes cache state)
    (hrelay : relayEndpoint cr text net currentEpoch canonicalDescriptorHashes state blob =
      .ok state') :
    Staged cr text net currentEpoch canonicalDescriptorHashes cache state' := by
  obtain rfl | rfl | ⟨descriptor, hdecode, hcanonical, hinserts, rfl⟩ := relayEndpoint_cases hrelay
  · exact h
  · obtain ⟨new, hprune, hnew⟩ := h.prune
    exact ⟨_, new, hprune, .inr rfl, hnew⟩
  · obtain ⟨new, hprune, hnew⟩ := h.prune
    refine ⟨_, new ++ [⟨hashEndpointDescriptorV2 cr net descriptor, descriptor⟩], ?_, .inr rfl,
      List.rel_append hnew (.cons ⟨hdecode, rfl, hcanonical, hinserts.current, ?_⟩ .nil)⟩
    · show ({ state.1.prune currentEpoch with
          entries := (state.1.prune currentEpoch).entries ++ [_] } : EndpointDescriptorCacheV2) = _
      rw [hprune, List.append_assoc]
    · intro hmem
      have hsubset : (state.1.prune currentEpoch).entries ⊆ state.1.entries :=
        List.filter_subset_self _
      rw [hprune] at hsubset
      exact hinserts.absent
        (List.map_subset _ (List.Subset.trans (List.subset_append_left _ _) hsubset) hmem)

lemma Staged.foldlM (h : Staged cr text net currentEpoch canonicalDescriptorHashes cache state)
    (hfold : blobs.foldlM (relayEndpoint cr text net currentEpoch canonicalDescriptorHashes)
      state = .ok state') :
    Staged cr text net currentEpoch canonicalDescriptorHashes cache state' ∧
      ∃ passed, state'.2 = state.2 ++ passed ∧ passed.Sublist blobs := by
  induction blobs generalizing state with
  | nil =>
    obtain rfl := Except.ok.inj hfold
    exact ⟨h, [], (List.append_nil _).symm, .slnil⟩
  | cons blob blobs ih =>
    rw [List.foldlM_cons] at hfold
    cases hrelay : relayEndpoint cr text net currentEpoch canonicalDescriptorHashes state blob with
    | error status =>
      rw [hrelay] at hfold
      cases hfold
    | ok middle =>
      rw [hrelay] at hfold
      obtain ⟨hstaged, passed, hpassed, hsublist⟩ := ih (h.relay hrelay) hfold
      refine ⟨hstaged, ?_⟩
      obtain rfl | rfl | ⟨descriptor, -, -, -, rfl⟩ := relayEndpoint_cases hrelay
      · exact ⟨passed, hpassed, hsublist.cons _⟩
      · exact ⟨passed, hpassed, hsublist.cons _⟩
      · exact ⟨blob :: passed, by rw [hpassed, List.append_assoc]; rfl, hsublist.cons_cons _⟩

lemma wellFormed_foldlM {scopes : Set Scope} (h : state.1.WellFormed cr text scopes)
    (hnet : net ∈ scopes)
    (hfold : blobs.foldlM (relayEndpoint cr text net currentEpoch canonicalDescriptorHashes)
      state = .ok state') : state'.1.WellFormed cr text scopes := by
  induction blobs generalizing state with
  | nil =>
    obtain rfl := Except.ok.inj hfold
    exact h
  | cons blob blobs ih =>
    rw [List.foldlM_cons] at hfold
    cases hrelay : relayEndpoint cr text net currentEpoch canonicalDescriptorHashes state blob with
    | error status =>
      rw [hrelay] at hfold
      cases hfold
    | ok middle =>
      rw [hrelay] at hfold
      refine ih ?_ hfold
      obtain rfl | rfl | ⟨descriptor, -, -, hinserts, rfl⟩ := relayEndpoint_cases hrelay
      · exact h
      · exact h.prune currentEpoch
      · exact h.insert hnet hinserts

lemma admitEndpointRelayBatchV2_cases (cr : Crypto) (text : AddressText) (net : Scope)
    (currentEpoch : UInt64) (blobs : List (List UInt8)) (canonicalDescriptorHashes : List Hash)
    (cache : EndpointDescriptorCacheV2) :
    (∃ status, admitEndpointRelayBatchV2 cr text net currentEpoch blobs canonicalDescriptorHashes
      cache = (status, cache, [])) ∨
    ∃ state, admitEndpointRelayBatchV2 cr text net currentEpoch blobs canonicalDescriptorHashes
        cache = (.accepted, state) ∧
      blobs.foldlM (relayEndpoint cr text net currentEpoch canonicalDescriptorHashes) (cache, []) =
        .ok state := by
  unfold admitEndpointRelayBatchV2
  split
  · exact .inl ⟨_, rfl⟩
  split
  · exact .inl ⟨_, rfl⟩
  · rename_i staged accepted hfold
    exact .inr ⟨(staged, accepted), rfl, hfold⟩

end Batch

namespace EndpointDescriptorCacheV2

variable {cr : Crypto} {text : AddressText} {scopes : Set Scope}
  {cache : EndpointDescriptorCacheV2}

/-- The caches that admissions, batches and prunes reach, with the networks they are made for. -/
inductive Reaches (cr : Crypto) (text : AddressText) (scopes : Set Scope) :
    EndpointDescriptorCacheV2 → Prop
  | new (maxEntries : ℕ) (maxFutureEpochs : UInt64) :
    Reaches cr text scopes ⟨maxEntries, maxFutureEpochs, []⟩
  | admitDescriptor {cache : EndpointDescriptorCacheV2} (h : Reaches cr text scopes cache)
      {net : Scope} (hnet : net ∈ scopes) (currentEpoch : UInt64)
      (descriptor : EndpointDescriptorV2) :
    Reaches cr text scopes (cache.admitDescriptor cr text net currentEpoch descriptor).2
  | batch {cache : EndpointDescriptorCacheV2} (h : Reaches cr text scopes cache) {net : Scope}
      (hnet : net ∈ scopes) (currentEpoch : UInt64) (blobs : List (List UInt8))
      (canonicalDescriptorHashes : List Hash) :
    Reaches cr text scopes (admitEndpointRelayBatchV2 cr text net currentEpoch blobs
      canonicalDescriptorHashes cache).2.1
  | prune {cache : EndpointDescriptorCacheV2} (h : Reaches cr text scopes cache)
      (currentEpoch : UInt64) :
    Reaches cr text scopes (cache.prune currentEpoch)

lemma Reaches.wellFormed (h : Reaches cr text scopes cache) :
    cache.WellFormed cr text scopes := by
  induction h with
  | new maxEntries maxFutureEpochs =>
    exact ⟨List.nodup_nil, fun entry hentry => (List.not_mem_nil hentry).elim, Nat.zero_le _⟩
  | admitDescriptor _ hnet currentEpoch descriptor ih =>
    exact ih.admitDescriptor hnet currentEpoch descriptor
  | @batch cache _ net hnet currentEpoch blobs canonicalDescriptorHashes ih =>
    obtain ⟨status, heq⟩ | ⟨state, heq, hfold⟩ := admitEndpointRelayBatchV2_cases cr text net
      currentEpoch blobs canonicalDescriptorHashes cache
    · rw [heq]
      exact ih
    · rw [heq]
      exact wellFormed_foldlM ih hnet hfold
  | prune _ currentEpoch ih => exact ih.prune currentEpoch

lemma WellFormed.of_find (h : cache.WellFormed cr text scopes) {descriptorHash : Hash}
    {currentEpoch : UInt64} {descriptor : EndpointDescriptorV2}
    (hfind : cache.find descriptorHash currentEpoch = some descriptor) :
    (∃ net ∈ scopes, validateEndpointDescriptorV2 cr text net descriptor = .accepted ∧
      hashEndpointDescriptorV2 cr net descriptor = descriptorHash) ∧
      currentEpoch ≤ descriptor.expiryEpoch := by
  obtain ⟨entry, hentry, rfl⟩ := Option.map_eq_some_iff.mp hfind
  obtain ⟨net, hnet, hvalid, hhash⟩ := h.hashes entry (List.mem_of_find?_eq_some hentry)
  have hmatch := List.find?_some hentry
  rw [Bool.and_eq_true, decide_eq_true_eq, decide_eq_true_eq] at hmatch
  exact ⟨⟨net, hnet, hvalid, hhash.symm.trans hmatch.1⟩, hmatch.2⟩

end EndpointDescriptorCacheV2

/-- **Endpoint gossip is exact and atomic.**  Encoding and decoding are inverse between the valid
descriptors and the blobs that are accepted; every cache that is reached has distinct hashes of
valid descriptors, within its bound; a batch that is not accepted changes nothing, and one that is
passes on exactly the blobs whose entries it added.  The text of an address, which the library
writes into a buffer of 256 bytes, fits a length of two bytes. -/
theorem endpoint_gossip_is_exact (cr : Crypto) (text : AddressText)
    (hshort : ∀ address, (text.toText address).length ≤ 65535) :
    (∀ net descriptor, validateEndpointDescriptorV2 cr text net descriptor = .accepted →
      ∃ blob, encodeEndpointDescriptorV2 cr text net descriptor = .ok blob ∧
        decodeEndpointDescriptorV2 cr text net blob = .ok descriptor) ∧
    (∀ net blob descriptor, decodeEndpointDescriptorV2 cr text net blob = .ok descriptor →
      validateEndpointDescriptorV2 cr text net descriptor = .accepted ∧
        encodeEndpointDescriptorV2 cr text net descriptor = .ok blob) ∧
    (∀ (scopes : Set Scope) (cache : EndpointDescriptorCacheV2), cache.Reaches cr text scopes →
      (cache.entries.map (·.descriptorHash)).Nodup ∧ cache.entries.length ≤ cache.maxEntries ∧
      (∀ entry ∈ cache.entries, ∃ net ∈ scopes,
        validateEndpointDescriptorV2 cr text net entry.descriptor = .accepted ∧
          entry.descriptorHash = hashEndpointDescriptorV2 cr net entry.descriptor) ∧
      ∀ descriptorHash currentEpoch descriptor,
        cache.find descriptorHash currentEpoch = some descriptor →
          (∃ net ∈ scopes, validateEndpointDescriptorV2 cr text net descriptor = .accepted ∧
            hashEndpointDescriptorV2 cr net descriptor = descriptorHash) ∧
            currentEpoch ≤ descriptor.expiryEpoch) ∧
    ∀ net currentEpoch blobs hashes (cache : EndpointDescriptorCacheV2),
      let result := admitEndpointRelayBatchV2 cr text net currentEpoch blobs hashes cache
      (result.1 ≠ .accepted → result.2 = (cache, [])) ∧
      (result.1 = .accepted → result.2.2.Sublist blobs ∧ ∃ kept new,
        result.2.1 = { cache with entries := kept ++ new } ∧
        (kept = cache.entries ∨ kept = (cache.prune currentEpoch).entries) ∧
        List.Forall₂ (fun blob entry =>
          encodeEndpointDescriptorV2 cr text net entry.descriptor = .ok blob ∧
            entry.descriptorHash = hashEndpointDescriptorV2 cr net entry.descriptor ∧
            entry.descriptorHash ∉ kept.map (·.descriptorHash) ∧
            entry.descriptorHash ∈ hashes ∧ currentEpoch ≤ entry.descriptor.expiryEpoch)
          result.2.2 new) := by
  have hback : ∀ net blob descriptor, decodeEndpointDescriptorV2 cr text net blob = .ok descriptor →
      validateEndpointDescriptorV2 cr text net descriptor = .accepted ∧
        encodeEndpointDescriptorV2 cr text net descriptor = .ok blob := by
    intro net blob descriptor h
    obtain ⟨hread, hvalid⟩ := decodeEndpointDescriptorV2_eq_ok_iff.mp h
    rw [encodeEndpointDescriptorV2_eq_ok hshort hvalid, eq_bytes_of_reader hread]
    exact ⟨hvalid, rfl⟩
  refine ⟨fun net descriptor hvalid => ?_, hback, fun scopes cache hreaches => ?_,
    fun net currentEpoch blobs hashes cache => ?_⟩
  · refine ⟨_, encodeEndpointDescriptorV2_eq_ok hshort hvalid,
      decodeEndpointDescriptorV2_eq_ok_iff.mpr ⟨?_, hvalid⟩⟩
    exact reader_bytes (transport_of_accepted hvalid) (length_host_of_accepted hshort hvalid)
  · have hformed := hreaches.wellFormed
    exact ⟨hformed.distinct, hformed.bounded, hformed.hashes, fun _ _ _ => hformed.of_find⟩
  · obtain ⟨status, heq⟩ | ⟨state, heq, hfold⟩ :=
      admitEndpointRelayBatchV2_cases cr text net currentEpoch blobs hashes cache
    · rw [heq]
      refine ⟨fun _ => rfl, fun _ => ⟨List.nil_sublist _, cache.entries, [], ?_, .inl rfl, .nil⟩⟩
      rw [List.append_nil]
    · rw [heq]
      refine ⟨fun hstatus => absurd rfl hstatus, fun _ => ?_⟩
      have hstart : Staged cr text net currentEpoch hashes cache (cache, []) :=
        ⟨cache.entries, [], by rw [List.append_nil], .inl rfl, .nil⟩
      obtain ⟨⟨kept, new, hentries, hkept, hnew⟩, passed, hpassed, hsublist⟩ := hstart.foldlM hfold
      rw [List.nil_append] at hpassed
      refine ⟨hpassed ▸ hsublist, kept, new, hentries, hkept, hnew.imp fun blob entry h => ?_⟩
      exact ⟨(hback net blob _ h.decoded).2, h.hash, h.fresh, h.canonical, h.current⟩

lemma AddressText.length_toText_sample (address : IpAddress) :
    (AddressText.sample.toText address).length ≤ 65535 := by
  unfold AddressText.sample
  dsimp only
  generalize hfind : List.find? _ _ = found
  cases found with
  | none => exact Nat.zero_le _
  | some entry =>
    have hmem := List.mem_of_find?_eq_some hfind
    simp only [List.mem_cons, List.not_mem_nil, or_false] at hmem
    rcases hmem with rfl | rfl <;> decide +kernel

theorem endpoint_gossip_is_exact_sample :
    ∃ blob, encodeEndpointDescriptorV2 .sample .sample .sample (.sample .tcpIpv4 "8.8.8.8") =
        .ok blob ∧
      decodeEndpointDescriptorV2 .sample .sample .sample blob = .ok (.sample .tcpIpv4 "8.8.8.8") :=
  (endpoint_gossip_is_exact .sample .sample AddressText.length_toText_sample).1 _ _
    (by decide +kernel)

end Qwertycoin
